import ContractBuild.Proofs.Build.TwoBases

/-!
A project that is loaded by its directory and by its settings file. The two have the same settings and bases
of the same components, and find the same files, but for the working directory: its base is a dot for the
one and nothing for the other, and a pattern may stand for files from the one base that it does not stand
for from the other.
-/
namespace ContractBuild
open FileTree FileAction ContractBuild.Action
open FileNode (Plain)

variable {tree : FileTree}

/-! Two spellings of a project -/

namespace Project

/-- The sources and the patterns of a project lead to paths that fit the limits. -/
structure InLimits (project : Project) (tree : FileTree) : Prop where
  sources : tree.Walkable project.sourcesDir
  externals : ∀ pattern ∈ project.settings.bindings.externals,
    (InterfaceExport.ofProject project).InLimits ⟨⟨pattern⟩⟩ tree

def DiscoverAlike (project other : Project) (tree : FileTree) : Prop :=
  ∃ paths others, project.sourcePaths tree = (.ok paths, tree) ∧ other.sourcePaths tree = (.ok others, tree) ∧
    List.Forall₂ Path.Alike paths others

def LoadAlike (project other : Project) (tree : FileTree) : Prop :=
  ∀ descriptors, (InterfaceExport.ofProject project).loadExternals tree = (.ok descriptors, tree) ↔
    (InterfaceExport.ofProject other).loadExternals tree = (.ok descriptors, tree)

variable {settings : Settings} {one other : Path}

theorem discoverAlike_iff (tidy : tree.root.Tidy) (quiet : tree.faultAfter = none) {project other : Project}
    (opens : tree.Opens project.sourcesDir) (opensOther : tree.Opens other.sourcesDir) :
    project.DiscoverAlike other tree ↔ List.Forall₂ Path.Alike
      (tree.listed project.sourcesDir isSource) (tree.listed other.sourcesDir isSource) := by
  constructor
  · rintro ⟨paths, others, discovered, discoveredOther, alike⟩
    obtain ⟨-, rfl, -⟩ := (discoverSources_ok_iff tidy quiet).1 discovered
    obtain ⟨-, rfl, -⟩ := (discoverSources_ok_iff tidy quiet).1 discoveredOther
    exact alike
  · exact fun alike => ⟨_, _, discoverSources_eq tidy opens quiet, discoverSources_eq tidy opensOther quiet, alike⟩

theorem loadAlike (quiet : tree.faultAfter = none) (limits : (Project.mk settings one).InLimits tree)
    (limitsOther : (Project.mk settings other).InLimits tree)
    (alike : ∀ pattern ∈ settings.bindings.externals,
      (InterfaceExport.fromBase settings one).FindAlike (InterfaceExport.fromBase settings other) ⟨⟨pattern⟩⟩ tree) :
    (Project.mk settings one).LoadAlike ⟨settings, other⟩ tree := fun _ =>
  ⟨InterfaceExport.loadFrom_of_alike quiet alike limits.externals limitsOther.externals,
    InterfaceExport.loadFrom_of_alike quiet (fun pattern listed => (alike pattern listed).symm) limitsOther.externals
      limits.externals⟩

/-! Loading -/

theorem ofText_eq_ok {text : String} {base : Path} {project : Project} :
    ofText text base = .ok project ↔
      Settings.ofText? text = some project.settings ∧ project.settings.check = .ok () ∧ project.base = base := by
  unfold ofText
  cases read : Settings.ofText? text with
  | none => exact ⟨nofun, nofun⟩
  | some settings =>
    dsimp only
    cases checked : settings.check with
    | error cause =>
      refine ⟨nofun, fun ⟨same, fine, _⟩ => ?_⟩
      rw [← Option.some.inj same, checked] at fine
      cases fine
    | ok _ =>
      constructor
      · intro same
        cases same
        exact ⟨rfl, checked, rfl⟩
      · rintro ⟨same, -, rfl⟩
        rw [Option.some.inj same]

theorem exists?_of_reveals {path : Path} {content : ByteArray} (reveals : tree.Reveals path content) :
    tree.exists? path = true := by
  rw [exists?, node?, FileTree.reveals_iff.1 reveals]
  rfl

theorem load_eq_ok {path file base : Path} {project : Project} {after : FileTree}
    (chosen : (if tree.isDirectory path then (path.join settingsFile, path)
      else (path, path.parent?.getD ⟨"."⟩)) = (file, base)) :
    load path tree = (.ok project, after) ↔
      ∃ text, readText file tree = (.ok text, after) ∧ ofText text base = .ok project := by
  have got : (get : ProjectAction FileTree) tree = (.ok tree, tree) := rfl
  unfold load
  rw [bind_of_ok got, chosen]
  dsimp only
  cases there : tree.exists? file with
  | false =>
    refine ⟨nofun, fun ⟨text, read, _⟩ => ?_⟩
    obtain ⟨content, reveals, -⟩ := readText_ok read
    rw [exists?_of_reveals reveals] at there
    cases there
  | true =>
    show (liftM (readText file) >>= fun text => liftM (ofText text base) : ProjectAction Project) tree = _ ↔ _
    have lifted : ∀ text state, (liftM (ofText text base) : ProjectAction Project) state = (ofText text base, state) :=
      fun _ _ => rfl
    constructor
    · intro ran
      obtain ⟨text, middle, read, made⟩ := bind_eq_ok ran
      rw [lifted, Prod.mk.injEq] at made
      obtain ⟨made, rfl⟩ := made
      exact ⟨text, telling_ok.1 read, made⟩
    · rintro ⟨text, read, made⟩
      have told : (liftM (readText file) : ProjectAction String) tree = (.ok text, after) := telling_ok.2 read
      rw [bind_of_ok told, lifted, made]

theorem after_of_load (quiet : tree.faultAfter = none) {path : Path} {project : Project} {after : FileTree}
    (ran : load path tree = (.ok project, after)) : after = tree := by
  obtain ⟨text, read, -⟩ := (load_eq_ok Prod.mk.eta.symm).1 ran
  have same : tree.SameFiles (Except.ok text, after).2 := read ▸ reads_readText _ tree
  exact same.eq_of_quiet quiet

/-- The project of a directory has that directory for its base, and what its settings file says. -/
theorem load_directory_iff (quiet : tree.faultAfter = none) {directory : Path}
    (isDirectory : tree.isDirectory directory = true) {project : Project} :
    load directory tree = (.ok project, tree) ↔ project.base = directory ∧ ∃ content text,
      tree.Reveals (directory.join settingsFile) content ∧ String.fromUTF8? content = some text ∧
        Settings.ofText? text = some project.settings ∧ project.settings.check = .ok () := by
  rw [load_eq_ok (by rw [if_pos isDirectory])]
  simp only [readText_iff quiet, ofText_eq_ok]
  constructor
  · rintro ⟨text, ⟨content, reveals, decoded⟩, read, fine, base⟩
    exact ⟨base, content, text, reveals, decoded, read, fine⟩
  · rintro ⟨base, content, text, reveals, decoded, read, fine⟩
    exact ⟨text, ⟨content, reveals, decoded⟩, read, fine, base⟩

/-- The project of a settings file has the parent of the file for its base. -/
theorem load_file (quiet : tree.faultAfter = none) {directory : Path} {content : ByteArray}
    (reveals : tree.Reveals (directory.join settingsFile) content) {text : String}
    (decoded : String.fromUTF8? content = some text) {settings : Settings} (read : Settings.ofText? text = some settings)
    (fine : settings.check = .ok ()) :
    load (directory.join settingsFile) tree = (.ok ⟨settings, directory.trimmed⟩, tree) := by
  have noDirectory : tree.isDirectory (directory.join settingsFile) = false := by
    rw [FileTree.isDirectory, node?, FileTree.reveals_iff.1 reveals]
    rfl
  have plain : Plain "kiln.yaml" := ⟨by decide, by decide, by decide, by decide⟩
  have parent : (directory.join settingsFile).parent?.getD ⟨"."⟩ = directory.trimmed := by
    rw [settingsFile, Path.parent?_join directory plain, Option.getD_some]
  refine (load_eq_ok (by rw [noDirectory, if_neg Bool.false_ne_true, parent])).2
    ⟨text, readText_of_reveals reveals decoded quiet, ofText_eq_ok.2 ⟨read, fine, rfl⟩⟩

/-- Two projects of the same settings that discover the same sources, find the same files for each pattern and
load the same descriptors. -/
structure Agree (project other : Project) (tree : FileTree) : Prop where
  settings : project.settings = other.settings
  sources : project.DiscoverAlike other tree
  files : ∀ pattern ∈ project.settings.bindings.externals,
    (InterfaceExport.ofProject project).FindAlike (InterfaceExport.ofProject other) ⟨⟨pattern⟩⟩ tree
  descriptors : project.LoadAlike other tree

section
variable (tidy : tree.root.Tidy) (quiet : tree.faultAfter = none)
include tidy

/-- A base without the idle segments at its end finds what it finds with them. -/
theorem findAlike_trimmed {base : Path} (filled : base.text.toList ≠ []) {glob : Glob}
    (limits : (InterfaceExport.fromBase settings base).InLimits glob tree)
    (limitsTrimmed : (InterfaceExport.fromBase settings base.trimmed).InLimits glob tree) :
    (InterfaceExport.fromBase settings base).FindAlike (InterfaceExport.fromBase settings base.trimmed) glob tree := by
  have alike : (base.join glob.literalLead).Alike (base.trimmed.join glob.literalLead) :=
    (Path.respells_trimmed base).symm.alike_join (Path.join_filled filled _)
      (Path.join_filled (Path.trimmed_filled filled) _)
  rw [InterfaceExport.findAlike_iff]
  cases isFile : tree.isFile ((InterfaceExport.fromBase settings base).base.join glob.literalLead) with
  | true =>
    exact @InterfaceExport.matched_of_alike_file tree (.fromBase settings base) (.fromBase settings base.trimmed) glob
      alike limits.lead.fits limitsTrimmed.lead.fits isFile
  | false =>
    rw [@InterfaceExport.forall₂_matched_iff tree (.fromBase settings base) (.fromBase settings base.trimmed) glob tidy
      alike limits.lead limitsTrimmed.lead isFile]
    intro node found names member
    have plain := plain_of_leaf tidy found names member
    refine @InterfaceExport.isWanted_congr (.fromBase settings base) (.fromBase settings base.trimmed) glob _ _ ?_
      (Path.components_trimmed base).symm (Path.components_join_trimmed filled ⟨settings.interfaces.path⟩).symm
    show ((base.join glob.literalLead).descend names).components =
      ((base.trimmed.join glob.literalLead).descend names).components
    rw [Path.components_descend _ plain, Path.components_descend _ plain,
      Path.components_join_trimmed filled glob.literalLead]

include quiet

theorem agree_trimmed {base : Path} (filled : base.text.toList ≠ [])
    (limits : (Project.mk settings base).InLimits tree)
    (limitsTrimmed : (Project.mk settings base.trimmed).InLimits tree) :
    (Project.mk settings base).Agree ⟨settings, base.trimmed⟩ tree := by
  have files : ∀ pattern ∈ settings.bindings.externals, (InterfaceExport.fromBase settings base).FindAlike
      (InterfaceExport.fromBase settings base.trimmed) ⟨⟨pattern⟩⟩ tree := fun pattern listed =>
    findAlike_trimmed tidy filled (limits.externals pattern listed) (limitsTrimmed.externals pattern listed)
  refine ⟨rfl, (discoverAlike_iff tidy quiet limits.sources.opens limitsTrimmed.sources.opens).2 ?_, files, loadAlike quiet limits limitsTrimmed files⟩
  exact sources_alike tidy ((Path.respells_trimmed base).symm.alike_join (Path.join_filled filled _)
    (Path.join_filled (Path.trimmed_filled filled) _)) limits.sources limitsTrimmed.sources

/-- From nothing the sources are those from a dot, unless the source directory is spelled empty. -/
theorem discoverAlike_dot_iff (limits : (Project.mk settings ⟨"."⟩).InLimits tree)
    (limitsBare : (Project.mk settings .empty).InLimits tree) :
    (Project.mk settings ⟨"."⟩).DiscoverAlike ⟨settings, .empty⟩ tree ↔
      settings.sources ≠ "" ∨ (Project.mk settings ⟨"."⟩).sourcePaths tree = (.ok [], tree) := by
  have bare : (Project.mk settings .empty).sourcesDir = ⟨settings.sources⟩ := Path.empty_join _
  rw [discoverAlike_iff tidy quiet limits.sources.opens limitsBare.sources.opens, Project.sourcePaths,
    discoverSources_eq tidy limits.sources.opens quiet, Prod.mk.injEq, Except.ok.injEq, and_iff_left rfl]
  by_cases empty : settings.sources = ""
  · have missing : ∀ node, tree.node (Project.mk settings .empty).sourcesDir ≠ .ok node := by
      intro node found
      rw [bare] at found
      exact node_nonempty found (by rw [empty]; rfl)
    have none : tree.listed (Project.mk settings .empty).sourcesDir isSource = [] := by
      cases found : tree.node (Project.mk settings .empty).sourcesDir with
      | error cause => exact listed_of_error found _
      | ok node => exact absurd found (missing node)
    rw [none, List.forall₂_nil_right_iff]
    exact ⟨.inr, fun none => none.resolve_left (absurd empty)⟩
  · have filled : (⟨settings.sources⟩ : Path).text.toList ≠ [] := mt String.toList_eq_nil_iff.1 empty
    have alike : ((Path.mk ".").join ⟨settings.sources⟩).Alike (Path.empty.join ⟨settings.sources⟩) :=
      InterfaceExport.dot_respells.alike_join (Path.join_filled (by decide) _) (by rwa [Path.empty_join])
    exact iff_of_true (sources_alike tidy alike limits.sources limitsBare.sources) (.inl empty)

/-- A project that is loaded by its directory is loaded by its settings file as well, with the same settings and
a base of the same components, and the two agree. By the bare name of the settings file the project of the
working directory has the empty path for its base: its sources are the same as from a dot unless they
are spelled empty, a pattern stands for the same files if and only if it is unmoved, and the descriptors
are the same if all patterns are. -/
theorem load_by_file {directory : Path} (isDirectory : tree.isDirectory directory = true) {project : Project}
    (loaded : load directory tree = (.ok project, tree)) :
    (∃ other, load (directory.join settingsFile) tree = (.ok other, tree) ∧ other.settings = project.settings ∧
      other.base.components = project.base.components ∧ other.base.text ≠ "" ∧
      (project.InLimits tree → other.InLimits tree → project.Agree other tree)) ∧
    (directory = ⟨"."⟩ → ∃ bare, load settingsFile tree = (.ok bare, tree) ∧ bare.settings = project.settings ∧
      bare.base = .empty ∧ (project.InLimits tree → bare.InLimits tree →
        (project.DiscoverAlike bare tree ↔
          project.settings.sources ≠ "" ∨ project.sourcePaths tree = (.ok [], tree)) ∧
        (∀ pattern ∈ project.settings.bindings.externals,
          ((InterfaceExport.ofProject project).FindAlike (InterfaceExport.ofProject bare) ⟨⟨pattern⟩⟩ tree ↔
            InterfaceExport.Unmoved project.settings ⟨⟨pattern⟩⟩ tree)) ∧
        ((∀ pattern ∈ project.settings.bindings.externals,
          InterfaceExport.Unmoved project.settings ⟨⟨pattern⟩⟩ tree) → project.LoadAlike bare tree))) := by
  obtain ⟨base, content, text, reveals, decoded, read, fine⟩ := (load_directory_iff quiet isDirectory).1 loaded
  obtain ⟨settings, here⟩ := project
  obtain rfl : here = directory := base
  have filled : here.text.toList ≠ [] := by
    intro empty
    rw [isDirectory_of_empty empty] at isDirectory
    cases isDirectory
  constructor
  · refine ⟨_, load_file quiet reveals decoded read fine, rfl, Path.components_trimmed here, ?_,
      agree_trimmed tidy quiet filled⟩
    exact fun empty => Path.trimmed_filled filled (by rw [empty]; rfl)
  · rintro rfl
    have alike : ((Path.mk ".").join settingsFile).Alike (Path.empty.join settingsFile) :=
      InterfaceExport.dot_respells.alike_join (by decide) (by decide)
    have revealsBare := (alike.reveals_iff ⟨by decide, by decide⟩ ⟨by decide, by decide⟩).1 reveals
    have loadedBare := load_file quiet revealsBare decoded read fine
    rw [Path.empty_join, Path.trimmed_empty] at loadedBare
    refine ⟨⟨settings, .empty⟩, loadedBare, rfl, rfl, fun limits limitsBare => ?_⟩
    have unmoved : ∀ pattern ∈ settings.bindings.externals, ((InterfaceExport.fromBase settings ⟨"."⟩).FindAlike
        (InterfaceExport.fromBase settings .empty) ⟨⟨pattern⟩⟩ tree ↔
          InterfaceExport.Unmoved settings ⟨⟨pattern⟩⟩ tree) := by
      intro pattern listed
      refine InterfaceExport.findAlike_dot_iff tidy (limits.externals pattern listed).lead ?_
      have fits := (limitsBare.externals pattern listed).lead
      rwa [show (InterfaceExport.ofProject ⟨settings, .empty⟩).base = Path.empty from rfl, Path.empty_join] at fits
    exact ⟨discoverAlike_dot_iff tidy quiet limits limitsBare, unmoved, fun all =>
      loadAlike quiet limits limitsBare fun pattern listed => (unmoved pattern listed).2 (all pattern listed)⟩

end

def besides : FileTree :=
  ⟨.directory [("V.json", .file "[]".toUTF8), ("kiln.yaml", .file
    "name: p\nbindings:\n  external_artifacts: [\"*.json\"]\n".toUTF8)], [], none⟩

/-- What the project says, and how many descriptors it loads by its directory and by its file. -/
theorem load_besides : ∃ settings, load ⟨"."⟩ besides = (.ok ⟨settings, ⟨"."⟩⟩, besides) ∧
    settings.sources = "contracts" ∧ settings.interfaces.path = "abis" ∧ settings.bindings.externals = ["*.json"] ∧
    ((InterfaceExport.fromBase settings ⟨"."⟩).loadExternals besides).1.toOption.map List.length = some 1 := by
  have told : (load ⟨"."⟩ besides).1.toOption.map (fun project => (project.settings.sources,
      project.settings.interfaces.path, project.settings.bindings.externals,
        ((InterfaceExport.ofProject project).loadExternals besides).1.toOption.map List.length)) =
          some ("contracts", "abis", ["*.json"], some 1) := by decide +kernel
  cases ran : load ⟨"."⟩ besides with
  | mk outcome after =>
    rw [ran] at told
    cases outcome with
    | error cause => cases told
    | ok project =>
      obtain rfl : after = besides := after_of_load rfl ran
      obtain ⟨settings, base⟩ := project
      obtain rfl : base = ⟨"."⟩ := ((load_directory_iff rfl (by decide +kernel)).1 ran).1
      have parts := Option.some.inj told
      simp only [Prod.mk.injEq] at parts
      exact ⟨settings, rfl, parts⟩

theorem matched_besides (interfaces : settings.interfaces.path = "abis") :
    (InterfaceExport.fromBase settings ⟨"."⟩).matched ⟨⟨"*.json"⟩⟩ besides = [⟨"./V.json"⟩] ∧
      (InterfaceExport.fromBase settings .empty).matched ⟨⟨"*.json"⟩⟩ besides = [] := by
  have outDir : ∀ base : Path, (InterfaceExport.fromBase settings base).outDir = base.join ⟨"abis"⟩ := by
    intro base
    show base.join ⟨settings.interfaces.path⟩ = _
    rw [interfaces]
  constructor
  · rw [@InterfaceExport.matched_congr besides ⟨⟨"*.json"⟩⟩ (.fromBase settings ⟨"."⟩)
      ⟨⟨"."⟩, (Path.mk ".").join ⟨"abis"⟩, false, false, "", 0, []⟩ rfl (outDir _)]
    decide +kernel
  · rw [@InterfaceExport.matched_congr besides ⟨⟨"*.json"⟩⟩ (.fromBase settings .empty)
      ⟨.empty, Path.empty.join ⟨"abis"⟩, false, false, "", 0, []⟩ rfl (outDir _)]
    decide +kernel

theorem inLimits_besides (sources : settings.sources = "contracts") (interfaces : settings.interfaces.path = "abis")
    (externals : settings.bindings.externals = ["*.json"]) :
    (Project.mk settings ⟨"."⟩).InLimits besides ∧ (Project.mk settings .empty).InLimits besides := by
  obtain ⟨found, foundBare⟩ := matched_besides interfaces
  have tidy : besides.root.Tidy := FileNode.tidy_of_isTidy (by decide +kernel)
  have missing : ∀ root : Path, besides.exists? root = false → besides.Opens root :=
    fun root none isThere => nomatch none.symm.trans isThere
  constructor
  · refine ⟨?_, fun pattern listed => ?_⟩
    · show besides.Walkable ((Path.mk ".").join ⟨settings.sources⟩)
      rw [sources]
      exact ⟨⟨by decide, by decide⟩, missing _ (by decide +kernel)⟩
    · obtain rfl : pattern = "*.json" := List.mem_singleton.1 (externals ▸ listed)
      refine ⟨?_, found ▸ List.forall_mem_singleton.2 ⟨by decide, by decide⟩⟩
      show besides.Walkable ((Path.mk ".").join (Glob.mk ⟨"*.json"⟩).literalLead)
      exact ⟨⟨by decide +kernel, by decide +kernel⟩, opens_of_isSome tidy (by decide +kernel)⟩
  · refine ⟨?_, fun pattern listed => ?_⟩
    · show besides.Walkable (Path.empty.join ⟨settings.sources⟩)
      rw [sources]
      exact ⟨⟨by decide, by decide⟩, missing _ (by decide +kernel)⟩
    · obtain rfl : pattern = "*.json" := List.mem_singleton.1 (externals ▸ listed)
      refine ⟨?_, foundBare ▸ nofun⟩
      show besides.Walkable (Path.empty.join (Glob.mk ⟨"*.json"⟩).literalLead)
      exact ⟨⟨by decide +kernel, by decide +kernel⟩, missing _ (by decide +kernel)⟩

theorem loadExternals_besides (interfaces : settings.interfaces.path = "abis")
    (externals : settings.bindings.externals = ["*.json"]) :
    (InterfaceExport.fromBase settings .empty).loadExternals besides = (.ok [], besides) := by
  have expanded : (liftM ((InterfaceExport.fromBase settings .empty).expand ⟨⟨"*.json"⟩⟩) : BuildAction (List Path))
      besides = (.ok [], besides) := by
    refine telling_ok.2 (InterfaceExport.expand_eq_nil_iff.2 (matched_besides interfaces).2)
  rw [InterfaceExport.loadExternals, show (InterfaceExport.fromBase settings .empty).externals = ["*.json"] from externals,
    InterfaceExport.loadFrom, bind_of_ok expanded]
  rfl

theorem load_by_file_besides : ∃ project bare, load ⟨"."⟩ besides = (.ok project, besides) ∧
    load settingsFile besides = (.ok bare, besides) ∧ project.settings = bare.settings ∧
    project.DiscoverAlike bare besides ∧ ¬ InterfaceExport.Unmoved project.settings ⟨⟨"*.json"⟩⟩ besides ∧
    ¬ project.LoadAlike bare besides := by
  have tidy : besides.root.Tidy := FileNode.tidy_of_isTidy (by decide +kernel)
  obtain ⟨settings, ran, sources, interfaces, externals, count⟩ := load_besides
  obtain ⟨found, foundBare⟩ := matched_besides interfaces
  obtain ⟨limits, limitsBare⟩ := inLimits_besides sources interfaces externals
  obtain ⟨⟨_, base⟩, loaded, rfl, rfl, agrees⟩ := (load_by_file tidy rfl (by decide +kernel) ran).2 rfl
  obtain ⟨discover, find, -⟩ := agrees limits limitsBare
  refine ⟨_, _, ran, loaded, rfl, discover.2 (.inl ?_), fun unmoved => ?_, fun alike => ?_⟩
  · rw [sources]
    decide
  · have alike := (find "*.json" (externals ▸ List.mem_cons_self)).2 unmoved
    rw [InterfaceExport.findAlike_iff, found, foundBare] at alike
    cases alike
  · have loadedNone := (alike []).2 (loadExternals_besides interfaces externals)
    rw [loadedNone] at count
    cases count

end Project
end ContractBuild
