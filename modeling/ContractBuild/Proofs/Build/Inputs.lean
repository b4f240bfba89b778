import ContractBuild.Proofs.Build.Stages
import ContractBuild.Proofs.FileTree.Views

/-!
What a run reads: its sources and the descriptors from elsewhere. Both are the same in trees that
differ in hidden files alone, as long as no hidden file is a source or matched by a pattern.
-/
namespace ContractBuild
open FileTree FileAction ContractBuild.Action

variable {hidden : List String → Prop} {small large tree other : FileTree}

/-! Reading texts -/

theorem readText_ok {path : Path} {text : String} {after : FileTree}
    (ran : readText path tree = (.ok text, after)) :
    ∃ content, tree.Reveals path content ∧ String.fromUTF8? content = some text := by
  obtain ⟨content, middle, read, rest⟩ := bind_eq_ok ran
  refine ⟨content, reveals_of_readBytes read, ?_⟩
  cases decoded : String.fromUTF8? content with
  | none =>
    rw [decoded] at rest
    cases rest
  | some found =>
    rw [decoded] at rest
    cases rest
    rfl

theorem readText_of_reveals {path : Path} {content : ByteArray} {text : String}
    (reveals : tree.Reveals path content) (decoded : String.fromUTF8? content = some text)
    (quiet : tree.faultAfter = none) : readText path tree = (.ok text, tree) := by
  unfold readText
  rw [bind_of_ok (reveals.readBytes_eq quiet), decoded]
  rfl

/-- Where a path reveals what it reveals elsewhere, its text can be read as well. -/
theorem readText_of_same {path : Path} {text : String} {after : FileTree}
    (ran : readText path tree = (.ok text, after))
    (same : ∀ content, tree.Reveals path content → other.Reveals path content)
    (quiet : other.faultAfter = none) : readText path other = (.ok text, other) := by
  obtain ⟨content, reveals, decoded⟩ := readText_ok ran
  exact readText_of_reveals (same content reveals) decoded quiet

/-! Sources -/

def isSource (path : Path) : Bool :=
  (Language.ofPath? path).isSome

theorem discoverSources_of_missing {root : Path} (missing : tree.exists? root = false) :
    discoverSources root tree = (.ok [], tree) := by
  unfold discoverSources
  rw [bind_apply]
  show (ite _ _ _ : ProjectAction (List Path)) tree = _
  rw [missing]
  rfl

theorem discoverSources_of_exists {root : Path} (there : tree.exists? root = true)
    (quiet : tree.faultAfter = none) :
    discoverSources root tree =
      match tree.filesBelow root with
      | .ok paths => (.ok (paths.filter isSource), tree)
      | .error cause => (.error (.file cause), tree) := by
  unfold discoverSources
  rw [bind_apply]
  show (ite _ _ _ : ProjectAction (List Path)) tree = _
  rw [there]
  have walked : FileAction.filesBelow root tree = _ := attempt_quiet _ quiet
  show (FileAction.telling .file (FileAction.filesBelow root) >>= _ : ProjectAction (List Path)) tree = _
  cases found : tree.filesBelow root with
  | error cause =>
    rw [found] at walked
    refine bind_of_error ?_ _
    rw [FileAction.telling, walked]
    rfl
  | ok paths =>
    rw [found] at walked
    exact bind_of_ok (telling_ok.2 walked) _

theorem discoverSources_eq {root : Path} (tidy : tree.root.Tidy) (opens : tree.Opens root)
    (quiet : tree.faultAfter = none) :
    discoverSources root tree = (.ok (tree.listed root isSource), tree) := by
  cases there : tree.exists? root with
  | false =>
    cases found : tree.node root with
    | error cause => rw [discoverSources_of_missing there, listed_of_error found]
    | ok node => simp [exists?_iff.2 ⟨node, found⟩] at there
  | true =>
    obtain ⟨node, found⟩ := exists?_iff.1 there
    rw [discoverSources_of_exists there quiet, filesBelow_of_opens tidy found opens]
    rfl

theorem discoverSources_of_not_opens {root : Path} (tidy : tree.root.Tidy) (closed : ¬ tree.Opens root)
    (quiet : tree.faultAfter = none) :
    ∃ names, tree.IsDirectoryAt (tree.place root ++ names) ∧ pathLimit < (root.descend names).text.utf8ByteSize ∧
      discoverSources root tree = (.error (.file (.unopened (root.descend names))), tree) := by
  obtain ⟨there, names, isDirectory, long, fails⟩ := filesBelow_of_not_opens tidy closed
  refine ⟨names, isDirectory, long, ?_⟩
  rw [discoverSources_of_exists there quiet, fails]

/-- Sources are found just where nothing stops the walk. -/
theorem discoverSources_ok_iff {root : Path} (tidy : tree.root.Tidy) (quiet : tree.faultAfter = none)
    {paths : List Path} {after : FileTree} :
    discoverSources root tree = (.ok paths, after) ↔
      tree.Opens root ∧ paths = tree.listed root isSource ∧ after = tree := by
  by_cases opens : tree.Opens root
  · rw [discoverSources_eq tidy opens quiet]
    constructor
    · rintro ⟨⟩
      exact ⟨opens, rfl, rfl⟩
    · rintro ⟨-, rfl, rfl⟩
      rfl
  · obtain ⟨_, _, _, fails⟩ := discoverSources_of_not_opens tidy opens quiet
    rw [fails]
    exact ⟨nofun, fun found => absurd found.1 opens⟩

theorem readUnit_of_same {path : Path} {unit : SourceUnit} {after : FileTree}
    (ran : SourceUnit.read path tree = (.ok unit, after))
    (same : ∀ content, tree.Reveals path content → other.Reveals path content)
    (quiet : other.faultAfter = none) : SourceUnit.read path other = (.ok unit, other) := by
  unfold SourceUnit.read at ran ⊢
  cases spoken : Language.ofPath? path with
  | none =>
    rw [spoken] at ran
    cases ran
  | some language =>
    rw [spoken] at ran
    obtain ⟨text, middle, read, rest⟩ := bind_eq_ok ran
    have again : (liftM (readText path) : ProjectAction String) other = (.ok text, other) :=
      telling_ok.2 (readText_of_same (telling_ok.1 read) same quiet)
    dsimp only
    rw [bind_of_ok again]
    cases rest
    rfl

theorem inBuild_ok {α : Type} {action : ProjectAction α} {value : α} {after : FileTree} :
    ProjectAction.inBuild action tree = (.ok value, after) ↔ action tree = (.ok value, after) := by
  unfold ProjectAction.inBuild
  rcases action tree with ⟨cause | found, last⟩
  · exact ⟨nofun, nofun⟩
  · constructor <;> exact fun same => by cases same; rfl

theorem readUnits_of_same {seen units : List SourceUnit} {paths : List Path} {after : FileTree}
    (ran : Pipeline.readUnits seen paths tree = (.ok units, after)) (quietTree : tree.faultAfter = none)
    (same : ∀ path ∈ paths, ∀ content, tree.Reveals path content → other.Reveals path content)
    (quiet : other.faultAfter = none) : Pipeline.readUnits seen paths other = (.ok units, other) := by
  induction paths generalizing seen with
  | nil =>
    cases ran
    rfl
  | cons path paths ih =>
    obtain ⟨unit, middle, read, rest⟩ := bind_eq_ok ran
    have unchanged := (keeps_inBuild (reads_readUnit path) tree).eq_of_quiet quietTree
    rw [read] at unchanged
    obtain rfl : middle = tree := unchanged
    have again : ProjectAction.inBuild (SourceUnit.read path) other = (.ok unit, other) :=
      inBuild_ok.2 (readUnit_of_same (inBuild_ok.1 read) (same path List.mem_cons_self) quiet)
    unfold Pipeline.readUnits
    rw [bind_of_ok again]
    cases taken : seen.find? (·.artifactName = unit.artifactName) with
    | some first =>
      rw [taken] at rest
      cases rest
    | none =>
      rw [taken] at rest
      exact ih rest fun next member => same next (List.mem_cons_of_mem _ member)

/-- What holds of the sources that were read is kept by each one that is read and has a name of its own. -/
theorem readUnits_upholds (P : List SourceUnit → Prop)
    (grows : ∀ {seen unit path before middle}, SourceUnit.read path before = (.ok unit, middle) →
      unit.artifactName ∉ seen.map SourceUnit.artifactName → P seen → P (seen ++ [unit]))
    {seen units : List SourceUnit} {paths : List Path} {after : FileTree}
    (ran : Pipeline.readUnits seen paths tree = (.ok units, after)) (start : P seen) : P units := by
  induction paths generalizing seen tree with
  | nil =>
    cases ran
    exact start
  | cons path paths ih =>
    obtain ⟨unit, middle, read, rest⟩ := bind_eq_ok ran
    cases taken : seen.find? (·.artifactName = unit.artifactName) with
    | some first =>
      rw [taken] at rest
      cases rest
    | none =>
      rw [taken] at rest
      refine ih rest (grows (inBuild_ok.1 read) ?_ start)
      simpa using List.find?_eq_none.1 taken

/-- No two sources that are read have one name. -/
theorem nodup_of_readUnits {seen units : List SourceUnit} {paths : List Path} {after : FileTree}
    (ran : Pipeline.readUnits seen paths tree = (.ok units, after))
    (nodup : (seen.map SourceUnit.artifactName).Nodup) : (units.map SourceUnit.artifactName).Nodup := by
  refine readUnits_upholds (fun units => (units.map SourceUnit.artifactName).Nodup) ?_ ran nodup
  intro seen unit path before middle _ free nodup
  rw [List.map_append, List.map_singleton]
  exact nodup.append (List.nodup_singleton _) (List.disjoint_singleton.2 free)

theorem isSource_of_readUnits {seen units : List SourceUnit} {paths : List Path} {after : FileTree}
    (ran : Pipeline.readUnits seen paths tree = (.ok units, after))
    (known : ∀ unit ∈ seen, isSource unit.path = true) : ∀ unit ∈ units, isSource unit.path = true := by
  refine readUnits_upholds (fun units => ∀ unit ∈ units, isSource unit.path = true) ?_ ran known
  intro seen unit path before middle read _ known
  refine List.forall_mem_append.2 ⟨known, List.forall_mem_singleton.2 ?_⟩
  unfold SourceUnit.read at read
  cases spoken : Language.ofPath? path with
  | none =>
    rw [spoken] at read
    cases read
  | some language =>
    rw [spoken] at read
    obtain ⟨text, _, _, made⟩ := bind_eq_ok read
    cases made
    exact Option.isSome_iff_exists.2 ⟨language, spoken⟩

/-- A source has a name. -/
theorem SourceUnit.artifactName_ne_empty {unit : SourceUnit} (source : isSource unit.path = true) :
    unit.artifactName ≠ "" := by
  obtain ⟨language, found⟩ := Option.isSome_iff_exists.1 source
  obtain ⟨extension, has, -⟩ := Option.bind_eq_some_iff.1 found
  obtain ⟨file, isFile, split⟩ := Option.bind_eq_some_iff.1 has
  have whole : Path.splitName file = ((Path.splitName file).1, some extension) := Prod.ext rfl split
  unfold artifactName Path.fileStem?
  rw [isFile]
  exact (Path.eq_of_splitName whole).1

theorem nodup_of_discover {pipeline : Pipeline} {units : List SourceUnit} {after : FileTree}
    (ran : pipeline.discover tree = (.ok units, after)) : (units.map SourceUnit.artifactName).Nodup := by
  obtain ⟨paths, middle, _, rest⟩ := bind_eq_ok ran
  exact nodup_of_readUnits rest List.nodup_nil

/-! Descriptors from elsewhere -/

theorem loadDescriptor_of_same {path : Path} {descriptor : Descriptor} {after : FileTree}
    (ran : Descriptor.load path tree = (.ok descriptor, after))
    (same : ∀ content, tree.Reveals path content → other.Reveals path content)
    (quiet : other.faultAfter = none) : Descriptor.load path other = (.ok descriptor, other) := by
  unfold Descriptor.load at ran ⊢
  obtain ⟨text, middle, read, rest⟩ := bind_eq_ok ran
  have again : (liftM (readText path) : BuildAction String) other = (.ok text, other) :=
    telling_ok.2 (readText_of_same (telling_ok.1 read) same quiet)
  rw [bind_of_ok again]
  cases scanned : Json.read? text with
  | none =>
    rw [scanned] at rest
    cases rest
  | some value =>
    rw [scanned] at rest
    dsimp only at rest ⊢
    cases decoded : Descriptor.ofJson ((Descriptor.declaredName? value).getD (path.fileStem?.getD "")) value with
    | error cause =>
      rw [decoded] at rest
      cases rest
    | ok found =>
      rw [decoded] at rest
      cases rest
      rfl

namespace InterfaceExport

def matched (exporter : InterfaceExport) (glob : Glob) (tree : FileTree) : List Path :=
  let root := exporter.base.join glob.literalLead
  if tree.isFile root then [root] else tree.listed root (exporter.isWanted glob)

theorem expand_eq (exporter : InterfaceExport) (glob : Glob) (tree : FileTree) :
    exporter.expand glob tree = (.ok (exporter.matched glob tree), tree) := by
  unfold expand matched
  rw [bind_apply, get_apply]
  dsimp only
  cases found : tree.node (exporter.base.join glob.literalLead) with
  | error cause =>
    have noFile : tree.isFile (exporter.base.join glob.literalLead) = false := by
      rw [isFile, node?, found]
      rfl
    have noDirectory : tree.isDirectory (exporter.base.join glob.literalLead) = false := by
      rw [isDirectory, node?, found]
      rfl
    rw [noFile, noDirectory, listed_of_error found]
    rfl
  | ok node =>
    cases node with
    | file content =>
      have isFile : tree.isFile (exporter.base.join glob.literalLead) = true := by
        rw [FileTree.isFile, node?, found]
        rfl
      rw [isFile]
      rfl
    | directory entries =>
      have noFile : tree.isFile (exporter.base.join glob.literalLead) = false := by
        rw [isFile, node?, found]
        rfl
      have isDirectory : tree.isDirectory (exporter.base.join glob.literalLead) = true := by
        rw [FileTree.isDirectory, node?, found]
        rfl
      rw [noFile, isDirectory]
      rfl

theorem readAll_of_same {found descriptors : List Descriptor} {paths : List Path} {after : FileTree}
    (ran : readAll found paths tree = (.ok descriptors, after)) (quietTree : tree.faultAfter = none)
    (same : ∀ path ∈ paths, ∀ content, tree.Reveals path content → other.Reveals path content)
    (quiet : other.faultAfter = none) : readAll found paths other = (.ok descriptors, other) := by
  induction paths generalizing found with
  | nil =>
    cases ran
    rfl
  | cons path paths ih =>
    obtain ⟨descriptor, middle, loaded, rest⟩ := bind_eq_ok ran
    have unchanged := (reads_loadDescriptor path tree).eq_of_quiet quietTree
    rw [loaded] at unchanged
    obtain rfl : middle = tree := unchanged
    unfold readAll
    rw [bind_of_ok (loadDescriptor_of_same loaded (same path List.mem_cons_self) quiet)]
    exact ih rest fun next member => same next (List.mem_cons_of_mem _ member)

/-- Every pattern stands for the same files in both trees, and what they reveal in the first one
they reveal in the second one as well. -/
theorem loadFrom_of_same {exporter : InterfaceExport} {found descriptors : List Descriptor}
    {patterns : List String} {after : FileTree}
    (ran : exporter.loadFrom found patterns tree = (.ok descriptors, after))
    (quietTree : tree.faultAfter = none)
    (alike : ∀ pattern ∈ patterns, exporter.matched ⟨⟨pattern⟩⟩ other = exporter.matched ⟨⟨pattern⟩⟩ tree)
    (same : ∀ pattern ∈ patterns, ∀ path ∈ exporter.matched ⟨⟨pattern⟩⟩ tree, ∀ content,
      tree.Reveals path content → other.Reveals path content)
    (quiet : other.faultAfter = none) :
    exporter.loadFrom found patterns other = (.ok descriptors, other) := by
  induction patterns generalizing found with
  | nil =>
    cases ran
    rfl
  | cons pattern patterns ih =>
    have expanded : ∀ tree : FileTree, (liftM (exporter.expand ⟨⟨pattern⟩⟩) : BuildAction (List Path)) tree =
        (.ok (exporter.matched ⟨⟨pattern⟩⟩ tree), tree) :=
      fun tree => telling_ok.2 (exporter.expand_eq ⟨⟨pattern⟩⟩ tree)
    unfold loadFrom at ran ⊢
    rw [bind_of_ok (expanded tree)] at ran
    rw [bind_of_ok (expanded other), alike pattern List.mem_cons_self]
    obtain ⟨more, middle, read, rest⟩ := bind_eq_ok ran
    have unchanged := (reads_readAll found (exporter.matched ⟨⟨pattern⟩⟩ tree) tree).eq_of_quiet quietTree
    rw [read] at unchanged
    obtain rfl : middle = tree := unchanged
    rw [bind_of_ok (readAll_of_same read quietTree (same pattern List.mem_cons_self) quiet)]
    exact ih rest (fun next member => alike next (List.mem_cons_of_mem _ member))
      fun next member => same next (List.mem_cons_of_mem _ member)

/-! In trees that differ in hidden files alone -/

variable {exporter : InterfaceExport} {glob : Glob}

theorem isFile_iff_reveals {path : Path} : tree.isFile path = true ↔ ∃ content, tree.Reveals path content := by
  rw [isFile_eq_true]
  constructor
  · rintro ⟨location, content, rest⟩
    exact ⟨content, location, rest⟩
  · rintro ⟨content, location, rest⟩
    exact ⟨location, content, rest⟩

theorem matched_of_isFile (isFile : tree.isFile (exporter.base.join glob.literalLead) = true) :
    exporter.matched glob tree = [exporter.base.join glob.literalLead] :=
  if_pos isFile

theorem matched_of_not_isFile (noFile : tree.isFile (exporter.base.join glob.literalLead) = false) :
    exporter.matched glob tree =
      tree.listed (exporter.base.join glob.literalLead) (exporter.isWanted glob) := by
  rw [matched]
  exact if_neg (by simp [noFile])

/-- A pattern that stands for no hidden file stands for the same files in both trees. -/
theorem matched_eq (widens : Widens hidden small large)
    (walks : Walks small large (exporter.base.join glob.literalLead))
    (visibleSmall : ∀ path ∈ exporter.matched glob small, ¬ hidden (small.place path))
    (visibleLarge : ∀ path ∈ exporter.matched glob large, ¬ hidden (small.place path)) :
    exporter.matched glob large = exporter.matched glob small ∧
      ∀ path ∈ exporter.matched glob small, ∀ content,
        small.Reveals path content ↔ large.Reveals path content := by
  cases isFileSmall : small.isFile (exporter.base.join glob.literalLead) with
  | true =>
    rw [matched_of_isFile isFileSmall] at visibleSmall ⊢
    have visible := visibleSmall _ List.mem_cons_self
    obtain ⟨content, reveals⟩ := isFile_iff_reveals.1 isFileSmall
    have isFileLarge := isFile_iff_reveals.2 ⟨content, widens.reveals_large visible reveals⟩
    refine ⟨matched_of_isFile isFileLarge, fun path member content => ?_⟩
    obtain rfl := List.mem_singleton.1 member
    exact widens.reveals_iff walks visible
  | false =>
    cases isFileLarge : large.isFile (exporter.base.join glob.literalLead) with
    | true =>
      rw [matched_of_isFile isFileLarge] at visibleLarge
      obtain ⟨content, reveals⟩ := isFile_iff_reveals.1 isFileLarge
      have inSmall := widens.reveals_small walks (visibleLarge _ List.mem_cons_self) reveals
      rw [isFile_iff_reveals.2 ⟨content, inSmall⟩] at isFileSmall
      cases isFileSmall
    | false =>
      rw [matched_of_not_isFile isFileSmall] at visibleSmall ⊢
      rw [matched_of_not_isFile isFileLarge] at visibleLarge ⊢
      exact ⟨widens.listed_eq walks visibleSmall visibleLarge,
        fun path member content => widens.reveals_listed walks visibleSmall member⟩

end InterfaceExport

namespace Pipeline

structure Overlooks (pipeline : Pipeline) (hidden : List String → Prop) (tree : FileTree) : Prop where
  sources : ∀ path ∈ tree.listed pipeline.project.sourcesDir isSource, ¬ hidden (tree.place path)
  externals : ∀ pattern ∈ pipeline.interfaceExport.externals,
    ∀ path ∈ pipeline.interfaceExport.matched ⟨⟨pattern⟩⟩ tree, ¬ hidden (tree.place path)

structure Arrives (pipeline : Pipeline) (small large : FileTree) : Prop where
  sources : Walks small large pipeline.project.sourcesDir
  externals : ∀ pattern ∈ pipeline.interfaceExport.externals,
    Walks small large (pipeline.interfaceExport.base.join (Glob.mk ⟨pattern⟩).literalLead)

structure Direct (pipeline : Pipeline) (tree : FileTree) : Prop where
  sources : tree.Direct pipeline.project.sourcesDir
  externals : ∀ pattern ∈ pipeline.interfaceExport.externals,
    tree.Direct (pipeline.interfaceExport.base.join (Glob.mk ⟨pattern⟩).literalLead)

variable {pipeline : Pipeline}

theorem Direct.arrives {first : FileTree} (direct : pipeline.Direct first)
    (workingDirectory : small.workingDirectory = first.workingDirectory)
    (directories : ∀ names, first.IsDirectoryAt names → small.IsDirectoryAt names) :
    pipeline.Arrives small large :=
  ⟨direct.sources.walks workingDirectory directories,
    fun pattern member => (direct.externals pattern member).walks workingDirectory directories⟩

theorem opens_of_discover (tidy : tree.root.Tidy) (quiet : tree.faultAfter = none) {units : List SourceUnit}
    {after : FileTree} (ran : pipeline.discover tree = (.ok units, after)) :
    tree.Opens pipeline.project.sourcesDir := by
  obtain ⟨paths, middle, found, -⟩ := bind_eq_ok ran
  exact ((discoverSources_ok_iff tidy quiet).1 (inBuild_ok.1 found)).1

theorem discover_iff (widens : Widens hidden small large) (arrives : pipeline.Arrives small large)
    (overSmall : pipeline.Overlooks hidden small) (overLarge : pipeline.Overlooks hidden large)
    (quietSmall : small.faultAfter = none) (quietLarge : large.faultAfter = none)
    (opens : large.Opens pipeline.project.sourcesDir) {units : List SourceUnit} :
    pipeline.discover small = (.ok units, small) ↔ pipeline.discover large = (.ok units, large) := by
  have visibleLarge : ∀ path ∈ large.listed pipeline.project.sourcesDir isSource,
      ¬ hidden (small.place path) := by
    intro path member
    rw [← widens.place_eq]
    exact overLarge.sources path member
  have same := widens.listed_eq arrives.sources overSmall.sources visibleLarge
  have found : ∀ {tree : FileTree}, tree.root.Tidy → tree.Opens pipeline.project.sourcesDir →
      tree.faultAfter = none → ProjectAction.inBuild pipeline.project.sourcePaths tree =
        (.ok (tree.listed pipeline.project.sourcesDir isSource), tree) :=
    fun tidy opens quiet => inBuild_ok.2 (discoverSources_eq tidy opens quiet)
  unfold discover
  rw [bind_of_ok (found widens.tidySmall (widens.opens opens) quietSmall),
    bind_of_ok (found widens.tidyLarge opens quietLarge), same]
  have reveals : ∀ path ∈ small.listed pipeline.project.sourcesDir isSource, ∀ content,
      small.Reveals path content ↔ large.Reveals path content :=
    fun path member content => widens.reveals_listed arrives.sources overSmall.sources member
  constructor
  · exact fun ran => readUnits_of_same ran quietSmall (fun path member content => (reveals path member content).1)
      quietLarge
  · exact fun ran => readUnits_of_same ran quietLarge (fun path member content => (reveals path member content).2)
      quietSmall

theorem loadExternals_iff (widens : Widens hidden small large) (arrives : pipeline.Arrives small large)
    (overSmall : pipeline.Overlooks hidden small) (overLarge : pipeline.Overlooks hidden large)
    (quietSmall : small.faultAfter = none) (quietLarge : large.faultAfter = none)
    {descriptors : List Descriptor} :
    pipeline.interfaceExport.loadExternals small = (.ok descriptors, small) ↔
      pipeline.interfaceExport.loadExternals large = (.ok descriptors, large) := by
  have agree : ∀ pattern ∈ pipeline.interfaceExport.externals,
      pipeline.interfaceExport.matched ⟨⟨pattern⟩⟩ large = pipeline.interfaceExport.matched ⟨⟨pattern⟩⟩ small ∧
        ∀ path ∈ pipeline.interfaceExport.matched ⟨⟨pattern⟩⟩ small, ∀ content,
          small.Reveals path content ↔ large.Reveals path content := by
    intro pattern member
    refine InterfaceExport.matched_eq widens (arrives.externals pattern member)
      (overSmall.externals pattern member) fun path isMatched => ?_
    rw [← widens.place_eq]
    exact overLarge.externals pattern member path isMatched
  unfold InterfaceExport.loadExternals
  constructor
  · intro ran
    refine InterfaceExport.loadFrom_of_same ran quietSmall (fun pattern member => (agree pattern member).1) ?_ quietLarge
    exact fun pattern member path isMatched content => ((agree pattern member).2 path isMatched content).1
  · intro ran
    refine InterfaceExport.loadFrom_of_same ran quietLarge (fun pattern member => (agree pattern member).1.symm) ?_ quietSmall
    intro pattern member path isMatched content
    rw [(agree pattern member).1] at isMatched
    exact ((agree pattern member).2 path isMatched content).2

end Pipeline
end ContractBuild
