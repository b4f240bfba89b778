import ContractBuild.Proofs.Build.Lineage

/-!
Building on what earlier runs left. What a run writes depends on its inputs alone: whatever is in the cache
was compiled from the sources as they are, and whatever the stamp vouches for is what would be generated. So
a run that is done leaves the descriptors and bindings that it would leave where nothing was built before.
-/
namespace ContractBuild
open FileTree FileAction ContractBuild.Action

/-! What is chosen depends on the interfaces of live artifacts alone -/

theorem InterfaceExport.select_congr {exporter : InterfaceExport} {lookup other : String → Option Artifact}
    (same : ∀ name, (lookup name).map Artifact.descriptor = (other name).map Artifact.descriptor)
    (selection : List String) (externals : List Descriptor) :
    exporter.select selection lookup externals = exporter.select selection other externals := by
  have isNone : (fun name => (lookup name).isNone) = fun name => (other name).isNone := by
    funext name
    have none := congrArg Option.isNone (same name)
    rwa [Option.isNone_map, Option.isNone_map] at none
  have each : (fun name => (lookup name).map Artifact.descriptor) =
      fun name => (other name).map Artifact.descriptor := funext same
  have externalNone : (fun descriptor : Descriptor => (lookup descriptor.name).isNone) =
      fun descriptor => (other descriptor.name).isNone :=
    funext fun descriptor => congrFun isNone descriptor.name
  unfold select
  dsimp only
  rw [isNone, each, externalNone]

theorem BindingExport.render_of_writes? {exporter : BindingExport} {descriptors : List Descriptor}
    {writes : List (Path × String)} (rendered : exporter.writes? descriptors = some writes) :
    ∀ descriptor ∈ descriptors, ∃ code, exporter.render descriptor = .ok code := by
  obtain ⟨codes, each, -⟩ := Option.map_eq_some_iff.1 rendered
  clear rendered
  induction descriptors generalizing codes with
  | nil => exact fun _ member => nomatch member
  | cons descriptor descriptors ih =>
    rw [codes?] at each
    split at each
    · cases each
    · next entries code here =>
      obtain ⟨others, rest, -⟩ := Option.map_eq_some_iff.1 each
      intro other member
      rcases List.mem_cons.1 member with rfl | later
      · exact ⟨_, here⟩
      · exact ih others rest other later

namespace Course

/-- What the history tells apart: inputs by their fingerprints, and generations by their digests. -/
structure Distinguishes (course : Course) : Prop where
  inputs : ∀ {one other}, course.inputs one → course.inputs other →
    Fingerprint.ofInput one = Fingerprint.ofInput other → one = other
  generations : ∀ {exporter descriptors other others}, course.generations exporter descriptors →
    course.generations other others → exporter.digest descriptors = other.digest others →
    exporter = other ∧ descriptors = others

def product (course : Course) (pipeline : Pipeline) (units : List SourceUnit) (name : String) :
    Option Descriptor := do
  let unit ← units.find? fun unit => unit.artifactName = name
  let request ← (pipeline.workFor unit).toOption
  let items ← course.interface name request.input
  return ⟨name, items⟩

variable {course : Course} {pipeline : Pipeline} {mode : Mode} {state clean : BuildState}
  {units : List SourceUnit} {externals descriptors : List Descriptor}

/-- A fresh artifact of a source has the interface that its source comes to. -/
theorem Distinguishes.interface_of_holds (distinguishes : course.Distinguishes) {store : Store}
    (live : ∀ artifact ∈ store.live, course.Good artifact) {request : Request} (counted : course.inputs request.input)
    (holds : store.Holds request.name request.fingerprint) :
    ∃ artifact, store.lookup request.name = some artifact ∧
      course.interface request.name request.input = some artifact.interface := by
  obtain ⟨artifact, found, fresh⟩ := holds
  obtain ⟨input, isInput, fingerprint, compiled⟩ := (live artifact (List.mem_of_find?_eq_some found)).compiled
  obtain rfl : input = request.input :=
    distinguishes.inputs isInput counted (fingerprint.symm.trans fresh)
  rw [Store.name_of_lookup found] at compiled
  exact ⟨artifact, found, compiled⟩

/-- Where all artifacts are fresh and of sources, what is live is what the sources come to. -/
theorem Distinguishes.lookup_eq (distinguishes : course.Distinguishes) {store : Store}
    (live : ∀ artifact ∈ store.live, course.Good artifact)
    (used : ∀ artifact ∈ store.live, artifact.name ∈ units.map SourceUnit.artifactName)
    (counted : course.Compiles pipeline units) (fresh : Pool.AllFresh (units.map pipeline.workFor) store)
    (name : String) : (store.lookup name).map Artifact.descriptor = course.product pipeline units name := by
  unfold product
  cases found : units.find? fun unit => unit.artifactName = name with
  | none =>
    have absent : store.lookup name = none := by
      rw [Store.lookup, List.find?_eq_none]
      intro artifact isLive same
      obtain ⟨unit, isUnit, named⟩ := List.mem_map.1 (used artifact isLive)
      have free := List.find?_eq_none.1 found unit isUnit
      rw [decide_eq_true_eq] at free same
      exact free (named.trans same)
    rw [absent]
    rfl
  | some unit =>
    have isUnit := List.mem_of_find?_eq_some found
    obtain rfl : unit.artifactName = name := by simpa using List.find?_some found
    obtain ⟨request, asks, holds⟩ := fresh _ (List.mem_map_of_mem isUnit)
    have named : request.name = unit.artifactName := by rw [Request.name, Pipeline.workFor_eq_ok asks]
    obtain ⟨artifact, there, compiled⟩ :=
      distinguishes.interface_of_holds live (counted unit isUnit request asks) holds
    rw [named] at there compiled
    rw [there, Option.bind_eq_bind, Option.bind_some, asks]
    show some artifact.descriptor = (course.interface unit.artifactName request.input).bind fun items =>
      some ⟨unit.artifactName, items⟩
    rw [compiled, ← Store.name_of_lookup there]
    rfl

/-! What the inputs of a run come to -/

structure Determines (course : Course) (pipeline : Pipeline) (tree : FileTree) (units : List SourceUnit)
    (externals descriptors : List Descriptor) : Prop where
  discovers : pipeline.discover tree = (.ok units, tree)
  counted : course.Compiles pipeline units
  loads : pipeline.interfaceExport.loadExternals tree = (.ok externals, tree)
  selects : ∀ lookup : String → Option Artifact,
    (∀ name, (lookup name).map Artifact.descriptor = course.product pipeline units name) →
    pipeline.interfaceExport.select pipeline.project.settings.interfaces.only lookup externals = .ok descriptors
  renders : ∃ writes, pipeline.bindingExport.writes? descriptors = some writes
  generates : course.generations pipeline.bindingExport descriptors

/-- A tree in which nothing was built, with the inputs of another one: the way to the inputs needs no
directory that only the other tree has, and nothing that runs write is among them. -/
structure Clears (course : Course) (pipeline : Pipeline) (tree clean : FileTree) : Prop where
  widens : Widens course.ground.Owns clean tree
  quiet : clean.faultAfter = none
  direct : pipeline.Direct clean
  overlooks : ∀ other, course.ground.Sees other → pipeline.Overlooks course.ground.Owns other

variable {tree first later : FileTree}

/-- What runs write does not get in the way of the inputs. -/
theorem Clears.confined (clears : course.Clears pipeline tree first)
    (confined : Confined course.ground.Owns tree later) : course.Clears pipeline later first :=
  ⟨⟨confined.workingDirectory.trans clears.widens.workingDirectory,
    fun names isDirectory => confined.directories names (clears.widens.directories names isDirectory),
    fun names visible => (confined.outside names visible).trans (clears.widens.files names visible),
    clears.widens.tidySmall, confined.tidy clears.widens.tidyLarge⟩, clears.quiet, clears.direct, clears.overlooks⟩

theorem Clears.self (clears : course.Clears pipeline tree first) : course.Clears pipeline first first :=
  ⟨⟨rfl, fun _ => id, fun _ _ => rfl, clears.widens.tidySmall, clears.widens.tidySmall⟩, clears.quiet,
    clears.direct, clears.overlooks⟩

theorem Clears.discover_iff (clears : course.Clears pipeline tree first) (sees : course.ground.Sees first)
    (seesToo : course.ground.Sees tree) (quiet : tree.faultAfter = none)
    (opens : tree.Opens pipeline.project.sourcesDir) :
    pipeline.discover first = (.ok units, first) ↔ pipeline.discover tree = (.ok units, tree) :=
  Pipeline.discover_iff clears.widens (clears.direct.arrives rfl fun _ => id) (clears.overlooks _ sees)
    (clears.overlooks _ seesToo) clears.quiet quiet opens

theorem Clears.loadExternals_iff (clears : course.Clears pipeline tree first) (sees : course.ground.Sees first)
    (seesToo : course.ground.Sees tree) (quiet : tree.faultAfter = none) :
    pipeline.interfaceExport.loadExternals first = (.ok externals, first) ↔
      pipeline.interfaceExport.loadExternals tree = (.ok externals, tree) :=
  Pipeline.loadExternals_iff clears.widens (clears.direct.arrives rfl fun _ => id) (clears.overlooks _ sees)
    (clears.overlooks _ seesToo) clears.quiet quiet

/-! A run that is done -/

/-- Behind everything that a run compiled, the bindings are as the stamp or the generation has them. -/
theorem fits_of_generates (apart : course.Apart) (distinguishes : course.Distinguishes) (uses : course.Uses pipeline)
    (counted : course.generations pipeline.bindingExport descriptors) {before last : RunState}
    (vouched : course.layout.Vouched (Pipeline.files before))
    (generates : pipeline.Generates descriptors before last (.ok ())) (clean : last.report.errors = []) :
    Layout.Fits course.ground.workingDirectory pipeline.bindingExport descriptors (Pipeline.files last) := by
  have layout := uses.layout apart
  generalize result : Except.ok () = ended at generates
  cases generates with
  | breaks => cases result
  | skips same told _ _ =>
    exact (Layout.fits_of_told distinguishes.generations vouched layout counted told).of_sameFiles same
  | @completes outcome read made same ran saved report =>
    rw [report] at clean
    have seesRead := (Layout.calms_of_sameFiles same vouched.sees).sees
    have fits := Layout.fits_of_generate seesRead ran (List.append_eq_nil_iff.1 clean).2
    refine fits.of_bindings counted fun names isBinding => saved.confined.outside names ?_
    have confined := pipeline.bindingExport.generate_confined descriptors seesRead.tidy
    rw [ran] at confined
    have seesMade : course.layout.Sees made :=
      ⟨confined.workingDirectory.trans seesRead.workingDirectory, confined.tidy seesRead.tidy⟩
    rintro rfl
    rw [layout.stampPlace seesMade] at isBinding
    exact isBinding.not_endsIn course.layout.stampPlace_endsIn

def settled (course : Course) (pipeline : Pipeline) (descriptors : List Descriptor) (names : List String)
    (content : ByteArray) : ByteArray :=
  if names = course.layout.stampPlace then
    (Stamp.mk (some (pipeline.bindingExport.digest descriptors))).toText.toUTF8
  else content

/-- A generation leaves descriptors alone, but for one in the place of the stamp. -/
theorem fileAt_of_generates (apart : course.Apart) (uses : course.Uses pipeline) {before last : RunState} {made : FileTree}
    (sees : course.layout.Sees (Pipeline.files before))
    (wrote : Output.Wrote (pipeline.interfaceExport.writes descriptors) made (Pipeline.files before))
    (generates : pipeline.Generates descriptors before last (.ok ())) (clean : last.report.errors = [])
    {names : List String} {content : ByteArray}
    (left : Output.left course.ground.workingDirectory (pipeline.interfaceExport.writes descriptors) names =
      some content) :
    (Pipeline.files last).fileAt names = some (course.settled pipeline descriptors names content) := by
  have layout := uses.layout apart
  have inside : made.workingDirectory = course.ground.workingDirectory :=
    wrote.confined.workingDirectory.symm.trans sees.workingDirectory
  have written : (Pipeline.files before).fileAt names = some content := wrote.there names content (inside ▸ left)
  obtain ⟨write, member, placed, text⟩ := Output.exists_of_left left
  obtain ⟨descriptor, _, rfl⟩ := List.mem_map.1 member
  have isRecord : EndsIn "json" names := by
    rw [← placed]
    exact InterfaceExport.placeFrom_descriptorPath _ _ _
  generalize result : Except.ok () = ended at generates
  cases generates with
  | breaks => cases result
  | skips same told _ _ =>
    have other : names ≠ course.layout.stampPlace := by
      rintro rfl
      have tells := told.at?
      rw [layout.stampPlace sees, Stamp.at?, written, text, Option.bind_some, Descriptor.told?_toText] at tells
      cases tells
    rw [same.fileAt_eq, written, settled, if_neg other]
  | @completes outcome read generated same ran saved report =>
    -- the stamp is saved last, and a descriptor may stand in its place
    rw [report] at clean
    have seesRead := (Layout.calms_of_sameFiles same sees).sees
    have confined := pipeline.bindingExport.generate_confined descriptors seesRead.tidy
    rw [ran] at confined
    have seesMade : course.layout.Sees generated :=
      ⟨confined.workingDirectory.trans seesRead.workingDirectory, confined.tidy seesRead.tidy⟩
    have stampPlace := layout.stampPlace seesMade
    by_cases stamp : names = course.layout.stampPlace
    · have there := saved.there
      rw [stampPlace, ← stamp] at there
      rw [there, settled, if_pos stamp, Pipeline.stampFor, (List.append_eq_nil_iff.1 clean).2]
      rfl
    · rw [saved.confined.outside names (stampPlace ▸ stamp), settled, if_neg stamp, ← written, ← same.fileAt_eq]
      refine confined.outside names fun changes => ?_
      exact pipeline.bindingExport.dialect.not_endsIn_json changes.endsIn isRecord

/-- What a run of a history that is done leaves: each descriptor, and each binding of a generation. -/
structure Leaves (course : Course) (pipeline : Pipeline) (descriptors : List Descriptor) (last : FileTree) : Prop where
  described : ∀ names content, Output.left course.ground.workingDirectory
    (pipeline.interfaceExport.writes descriptors) names = some content →
    last.fileAt names = some (course.settled pipeline descriptors names content)
  fits : Layout.Fits course.ground.workingDirectory pipeline.bindingExport descriptors last

/-- The files of descriptors and bindings are the same wherever they are left. -/
theorem Leaves.agree {last other : FileTree} (leaves : course.Leaves pipeline descriptors last)
    (leavesToo : course.Leaves pipeline descriptors other) :
    ∀ path ∈ descriptors.map (fun descriptor => pipeline.interfaceExport.descriptorPath descriptor.name) ++
        pipeline.bindingExport.expectedFiles (descriptors.map (·.name)), ∃ content,
      last.fileAt (placeFrom course.ground.workingDirectory path) = some content ∧
        other.fileAt (placeFrom course.ground.workingDirectory path) = some content := by
  intro path member
  rcases List.mem_append.1 member with described | expected
  · obtain ⟨descriptor, isDescriptor, rfl⟩ := List.mem_map.1 described
    have isWrite : (pipeline.interfaceExport.descriptorPath descriptor.name,
        descriptor.toText pipeline.interfaceExport.spacing) ∈ pipeline.interfaceExport.writes descriptors :=
      List.mem_map.2 ⟨descriptor, isDescriptor, rfl⟩
    obtain ⟨content, left⟩ := @Output.left_isSome_of_mem course.ground.workingDirectory _ _ isWrite
    exact ⟨_, leaves.described _ _ left, leavesToo.described _ _ left⟩
  · exact leaves.fits.agree leavesToo.fits expected

/-- In a run that is done the artifacts are those of the sources as they are. -/
theorem Reached.live (apart : course.Apart) (reached : course.Reached state) (counts : course.Counts pipeline mode state)
    {compiled : BuildState} {before last : RunState}
    (completes : course.ground.Completes pipeline mode state units externals descriptors compiled before last) :
    ∀ artifact ∈ compiled.store.live, course.Good artifact := by
  have holds := ((counts.uses.upholds apart).front mode ⟨.start, state⟩ counts.compiles).1 (reached.holds apart)
  rw [completes.fronted] at holds
  rw [← completes.stored]
  exact holds.live

theorem Reached.leaves (apart : course.Apart) (distinguishes : course.Distinguishes) (reached : course.Reached state)
    (counts : course.Counts pipeline mode state) {compiled : BuildState} {before last : RunState}
    (completes : course.ground.Completes pipeline mode state units externals descriptors compiled before last) :
    course.Leaves pipeline descriptors (pipeline.run mode state).2.workspace.files := by
  have layout := counts.uses.layout apart
  have vouched := (reached.life apart).vouched
  have calms := (layout.upholds.front mode ⟨.start, state⟩ fun _ _ => trivial).1 vouched.sees
  rw [completes.fronted] at calms
  have vouchedThen : course.layout.Vouched (Pipeline.files before) := vouched.calm calms
  have counted : course.generations pipeline.bindingExport descriptors :=
    counts.generates descriptors (congrArg Prod.fst completes.fronted)
  obtain ⟨paths, writes⟩ := completes.writes
  obtain ⟨made, _, wroteEach⟩ := InterfaceExport.write_ok writes
  obtain ⟨_, wrote⟩ := InterfaceExport.writeEach_ok wroteEach
  rw [completes.files]
  exact ⟨fun names content left => fileAt_of_generates apart counts.uses vouchedThen.sees wrote completes.generates
    completes.clean left, fits_of_generates apart distinguishes counts.uses counted vouchedThen completes.generates
    completes.clean⟩

/-- A run that is done tells what its inputs come to, wherever they are the same. -/
theorem Reached.determines (apart : course.Apart) (distinguishes : course.Distinguishes)
    (reached : course.Reached state) (counts : course.Counts pipeline mode state)
    (quiet : state.workspace.files.faultAfter = none) (clears : course.Clears pipeline state.workspace.files first)
    (sees : course.ground.Sees first) {compiled : BuildState} {before last : RunState}
    (completes : course.ground.Completes pipeline mode state units externals descriptors compiled before last) :
    course.Determines pipeline first units externals descriptors := by
  have holds := reached.holds apart
  have live := reached.live apart counts completes
  have counted := counts.compiles units (congrArg Prod.fst completes.discovers)
  have seesCompiled := completes.compiles.sees holds.sees
  have quietCompiled := completes.compiles.confined.quiet quiet
  have opens := Pipeline.opens_of_discover holds.sees.tidy quiet completes.discovers
  refine ⟨(clears.discover_iff sees holds.sees quiet opens).2 completes.discovers, counted,
    ((clears.confined completes.compiles.confined).loadExternals_iff sees seesCompiled quietCompiled).2
      completes.loads, ?_, ?_, counts.generates descriptors (congrArg Prod.fst completes.fronted)⟩
  · intro lookup same
    rw [← completes.selects]
    refine InterfaceExport.select_congr (fun name => (same name).trans ?_) _ _
    exact (distinguishes.lookup_eq live completes.compiles.live counted completes.fresh name).symm
  · obtain ⟨writes, rendered, _⟩ := (reached.leaves apart distinguishes counts completes).fits
    exact ⟨writes, rendered⟩

end Course
end ContractBuild
