import ContractBuild.Binding.Output
import ContractBuild.Proofs.Build.Writes

/-!
Generating bindings. Whatever comes of it, only files with the extension of the dialect change. A
generation without failures leaves every binding and the index as they are rendered.
-/
namespace ContractBuild
open FileTree FileAction ContractBuild.Action Output

theorem Dialect.suffix (dialect : Dialect) : Suffix dialect.fileExtension := by
  cases dialect <;> constructor <;> decide

theorem Dialect.plain_fileName (dialect : Dialect) {stem : String} (whole : '/' ∉ stem.toList) :
    FileNode.Plain (dialect.fileName stem) :=
  dialect.suffix.plain whole

theorem Dialect.whole_indexStem (dialect : Dialect) : '/' ∉ dialect.indexStem.toList := by
  cases dialect <;> decide

theorem suffix_json : Suffix "json" := by
  constructor <;> decide

/-- No binding has the extension of a record. -/
theorem Dialect.not_endsIn_json (dialect : Dialect) {names : List String}
    (ends : EndsIn dialect.fileExtension names) : ¬ EndsIn "json" names := by
  intro record
  have same := EndsIn.unique dialect.suffix suffix_json ends record
  cases dialect <;> exact absurd same (by decide)

namespace BindingExport

variable {exporter : BindingExport} {descriptors : List Descriptor} {tree after : FileTree}

def codes? (exporter : BindingExport) : List Descriptor → Option (List (Path × String))
  | [] => some []
  | descriptor :: descriptors =>
    match exporter.render descriptor with
    | .error _ => none
    | .ok (_, code) =>
      (codes? exporter descriptors).map ((exporter.bindingPath descriptor.name, code) :: ·)

def indexWrite (exporter : BindingExport) (names : List String) : Path × String :=
  (exporter.indexPath, exporter.dialect.renderIndex names)

def writes? (exporter : BindingExport) (descriptors : List Descriptor) :
    Option (List (Path × String)) :=
  (exporter.codes? descriptors).map (· ++ [exporter.indexWrite (descriptors.map (·.name))])

theorem paths_of_codes? {codes : List (Path × String)}
    (rendered : exporter.codes? descriptors = some codes) :
    codes.map Prod.fst = descriptors.map fun descriptor => exporter.bindingPath descriptor.name := by
  induction descriptors generalizing codes with
  | nil =>
    cases rendered
    rfl
  | cons descriptor descriptors ih =>
    rw [codes?] at rendered
    split at rendered
    · cases rendered
    · obtain ⟨others, some, rfl⟩ := Option.map_eq_some_iff.1 rendered
      rw [List.map_cons, List.map_cons, ih some]

/-- Such a generation writes the files that are expected of it. -/
theorem paths_of_writes? {writes : List (Path × String)}
    (rendered : exporter.writes? descriptors = some writes) :
    writes.map Prod.fst = exporter.expectedFiles (descriptors.map (·.name)) := by
  obtain ⟨codes, some, rfl⟩ := Option.map_eq_some_iff.1 rendered
  rw [List.map_append, paths_of_codes? some, expectedFiles, List.map_map]
  rfl

theorem placeFrom_bindingPath (workingDirectory : List String) (exporter : BindingExport)
    (stem : String) :
    EndsIn exporter.dialect.fileExtension
      (placeFrom workingDirectory (exporter.outDir.join ⟨exporter.dialect.fileName stem⟩)) :=
  exporter.dialect.suffix.placeFrom_endsIn workingDirectory exporter.outDir stem

/-- Files directly in the directory have one place if and only if they have one stem. -/
theorem place_file_eq_iff {one other : String} (wholeOne : '/' ∉ one.toList) (wholeOther : '/' ∉ other.toList) :
    tree.place (exporter.outDir.join ⟨exporter.dialect.fileName one⟩) =
      tree.place (exporter.outDir.join ⟨exporter.dialect.fileName other⟩) ↔ one = other := by
  rw [FileTree.place, FileTree.place, placeFrom_join_plain_inj _ _ (Dialect.plain_fileName _ wholeOne)
    (Dialect.plain_fileName _ wholeOther), Dialect.fileName, Dialect.fileName, String.append_left_inj,
    String.append_left_inj]

def Changes (exporter : BindingExport) (descriptors : List Descriptor) (workingDirectory names : List String) :
    Prop :=
  (∃ path ∈ exporter.expectedFiles (descriptors.map (·.name)), names = placeFrom workingDirectory path) ∨
    Purgeable workingDirectory exporter.outDir exporter.dialect.fileExtension (exporter.scope descriptors) names

theorem Changes.endsIn {workingDirectory names : List String}
    (changes : exporter.Changes descriptors workingDirectory names) :
    EndsIn exporter.dialect.fileExtension names := by
  rcases changes with ⟨path, expected, rfl⟩ | purgeable
  · rw [expectedFiles, List.mem_append, List.mem_map, List.mem_singleton] at expected
    rcases expected with ⟨name, _, rfl⟩ | rfl
    · exact placeFrom_bindingPath workingDirectory exporter (exporter.dialect.fileStem name)
    · exact placeFrom_bindingPath workingDirectory exporter exporter.dialect.indexStem
  · exact purgeable.endsIn

theorem writeBinding_eq (exporter : BindingExport) (descriptor : Descriptor) (tree : FileTree) :
    exporter.writeBinding descriptor tree =
      match exporter.render descriptor with
      | .error cause => (.error cause, tree)
      | .ok (entries, code) =>
        match writeIfChanged (exporter.bindingPath descriptor.name) code tree with
        | (.ok status, after) =>
          (.ok ⟨descriptor.name, entries, exporter.bindingPath descriptor.name, status⟩, after)
        | (.error cause, after) => (.error (.file cause), after) := by
  unfold writeBinding
  cases exporter.render descriptor with
  | error cause => rfl
  | ok rendered =>
    obtain ⟨entries, code⟩ := rendered
    show ((FileAction.telling BuildError.file (writeIfChanged (exporter.bindingPath descriptor.name) code) >>=
      fun status => pure (WrittenBinding.mk descriptor.name entries (exporter.bindingPath descriptor.name) status) :
        BuildAction WrittenBinding)) tree = _
    rw [bind_apply, FileAction.telling]
    dsimp only
    rcases writeIfChanged (exporter.bindingPath descriptor.name) code tree with ⟨cause | status, after⟩ <;> rfl

theorem writeBinding_confined (exporter : BindingExport) (descriptor : Descriptor) (tree : FileTree) :
    Confined (· = tree.place (exporter.bindingPath descriptor.name)) tree
      (exporter.writeBinding descriptor tree).2 := by
  rw [writeBinding_eq]
  split
  · exact .refl tree
  · next entries code rendered =>
    have written := writeIfChanged_confined (exporter.bindingPath descriptor.name) code tree
    revert written
    rcases writeIfChanged (exporter.bindingPath descriptor.name) code tree with ⟨cause | status, after⟩
    all_goals exact id

theorem writeEach_cons (exporter : BindingExport) (descriptor : Descriptor)
    (descriptors : List Descriptor) (tree : FileTree) :
    exporter.writeEach (descriptor :: descriptors) tree =
      let outcome := (exporter.writeBinding descriptor tree).1
      let others := exporter.writeEach descriptors (exporter.writeBinding descriptor tree).2
      match outcome with
      | .ok output => ((output :: others.1.1, others.1.2), others.2)
      | .error cause => ((others.1.1, cause :: others.1.2), others.2) := by
  show (match (exporter.writeBinding descriptor tree).1 with
      | .ok output => pure (output :: _, _)
      | .error cause => pure (_, cause :: _) : StateM FileTree _) _ = _
  cases (exporter.writeBinding descriptor tree).1 <;> rfl

theorem writeEach_confined (exporter : BindingExport) (descriptors : List Descriptor)
    (tree : FileTree) :
    Confined (fun names => ∃ descriptor ∈ descriptors, names = tree.place (exporter.bindingPath descriptor.name))
      tree (exporter.writeEach descriptors tree).2 := by
  induction descriptors generalizing tree with
  | nil => exact .refl tree
  | cons descriptor descriptors ih =>
    have first := writeBinding_confined exporter descriptor tree
    have rest := ih (exporter.writeBinding descriptor tree).2
    have both : Confined (fun names => ∃ other ∈ descriptor :: descriptors,
        names = tree.place (exporter.bindingPath other.name)) tree
        (exporter.writeEach descriptors (exporter.writeBinding descriptor tree).2).2 :=
      (first.mono fun names here => ⟨descriptor, List.mem_cons_self, here⟩).trans
        (rest.mono fun names ⟨other, member, here⟩ =>
          ⟨other, List.mem_cons_of_mem _ member, here.trans (first.place_eq _)⟩)
    rw [writeEach_cons]
    dsimp only
    split <;> exact both

/-- Where nothing failed, each descriptor was rendered and written. -/
theorem writeEach_ok {outputs : List WrittenBinding}
    (ran : exporter.writeEach descriptors tree = ((outputs, []), after)) :
    outputs.map (·.name) = descriptors.map (·.name) ∧
      ∃ codes, exporter.codes? descriptors = some codes ∧ Wrote codes tree after := by
  induction descriptors generalizing tree outputs with
  | nil =>
    cases ran
    exact ⟨rfl, [], rfl, .nil _⟩
  | cons descriptor descriptors ih =>
    rw [writeEach_cons] at ran
    dsimp only at ran
    split at ran
    · next output written =>
      rw [writeBinding_eq] at ran written
      split at written
      · cases written
      · next entries code rendered =>
        rw [rendered] at ran
        dsimp only at ran written
        split at written
        · next status middle stored =>
          cases written
          rw [stored] at ran
          dsimp only at ran
          obtain ⟨pair, rfl⟩ := Prod.mk.inj ran
          obtain ⟨rfl, clean⟩ := Prod.mk.inj pair
          have rest : exporter.writeEach descriptors middle =
              (((exporter.writeEach descriptors middle).1.1, []),
                (exporter.writeEach descriptors middle).2) := by
            rw [← clean]
            rfl
          obtain ⟨names, codes, some, wrote⟩ := ih rest
          refine ⟨?_, (exporter.bindingPath descriptor.name, code) :: codes, ?_,
            wrote.cons (writeIfChanged_ok stored)⟩
          · rw [List.map_cons, List.map_cons, names]
          · rw [codes?, rendered]
            simp only [some, Option.map_some]
        · cases written
    · cases ran

def prepare (exporter : BindingExport) (descriptors : List Descriptor) : BuildAction Unit := do
  FileAction.createDirectories exporter.outDir
  if exporter.clear then
    let _ ← purgeStale exporter.outDir exporter.dialect.fileExtension (exporter.scope descriptors)

def writeAll (exporter : BindingExport) (descriptors : List Descriptor) : BuildAction BindingReport := do
  let (outputs, failures) ← exporter.writeEach descriptors
  let _ ← writeIfChanged exporter.indexPath (exporter.dialect.renderIndex (outputs.map (·.name)))
  return ⟨outputs, failures, exporter.indexPath⟩

theorem writeAll_eq (exporter : BindingExport) (descriptors : List Descriptor) (tree : FileTree) :
    exporter.writeAll descriptors tree =
      let each := exporter.writeEach descriptors tree
      match writeIfChanged exporter.indexPath (exporter.dialect.renderIndex (each.1.1.map (·.name)))
        each.2 with
      | (.ok _, after) => (.ok ⟨each.1.1, each.1.2, exporter.indexPath⟩, after)
      | (.error cause, after) => (.error (.file cause), after) := by
  generalize ran : exporter.writeEach descriptors tree = each
  obtain ⟨⟨outputs, failures⟩, middle⟩ := each
  have lifted : (liftM (exporter.writeEach descriptors) : BuildAction _) tree =
      (.ok (outputs, failures), middle) := by
    show (Except.ok (exporter.writeEach descriptors tree).1, (exporter.writeEach descriptors tree).2) =
      (Except.ok (outputs, failures), middle)
    rw [ran]
  unfold writeAll
  rw [bind_of_ok lifted]
  dsimp only
  rw [bind_apply, inBuild_apply]
  rcases writeIfChanged exporter.indexPath _ middle with ⟨cause | status, after⟩ <;> rfl

theorem generate_eq (exporter : BindingExport) (descriptors : List Descriptor) :
    exporter.generate descriptors = exporter.prepare descriptors >>= fun _ =>
      exporter.writeAll descriptors := by
  unfold generate prepare
  rw [bind_assoc]
  congr 1
  funext _
  split
  · rw [bind_assoc]
    rfl
  · rfl

theorem prepare_confined (exporter : BindingExport) (descriptors : List Descriptor)
    {tree : FileTree} (tidy : tree.root.Tidy) :
    Confined (exporter.Changes descriptors tree.workingDirectory) tree
      (exporter.prepare descriptors tree).2 := by
  have confines : Confines tree.workingDirectory (exporter.Changes descriptors tree.workingDirectory)
      (exporter.prepare descriptors) := by
    apply Confines.bind
    · exact keeps_telling _ fun other _ _ => createDirectories_confined exporter.outDir other
    · intro _
      split
      · apply Confines.bind
        · refine keeps_telling _ fun other same tidy => (purgeStale_confined _ _ _ tidy).mono ?_
          intro names purgeable
          exact .inr (same ▸ purgeable)
        · exact fun _ => Confines.pure ()
      · exact Confines.pure ()
  exact confines tree rfl tidy

theorem writeAll_confined (exporter : BindingExport) (descriptors : List Descriptor) (tree : FileTree) :
    Confined (fun names => ∃ path ∈ exporter.expectedFiles (descriptors.map (·.name)), names = tree.place path)
      tree (exporter.writeAll descriptors tree).2 := by
  have wrote := writeEach_confined exporter descriptors tree
  have each : Confined (fun names => ∃ path ∈ exporter.expectedFiles (descriptors.map (·.name)),
      names = tree.place path) tree (exporter.writeEach descriptors tree).2 := by
    apply wrote.mono
    rintro names ⟨descriptor, member, rfl⟩
    exact ⟨_, List.mem_append_left _ (List.mem_map_of_mem (List.mem_map_of_mem member)), rfl⟩
  have indexed : Confined (fun names => ∃ path ∈ exporter.expectedFiles (descriptors.map (·.name)),
      names = tree.place path) (exporter.writeEach descriptors tree).2
      (writeIfChanged exporter.indexPath (exporter.dialect.renderIndex
        ((exporter.writeEach descriptors tree).1.1.map (·.name))) (exporter.writeEach descriptors tree).2).2 := by
    apply (writeIfChanged_confined _ _ _).mono
    rintro names rfl
    exact ⟨exporter.indexPath, List.mem_append_right _ List.mem_cons_self, wrote.place_eq _⟩
  have whole := each.trans indexed
  rw [writeAll_eq]
  dsimp only
  split
  · next status after ran =>
    rw [ran] at whole
    exact whole
  · next cause after ran =>
    rw [ran] at whole
    exact whole

/-- A generation changes what making ready its directory changes, and the files that are expected of it. -/
theorem generate_confined_of_prepare {scope : List String → Prop}
    (prepared : Confined scope tree (exporter.prepare descriptors tree).2)
    (expected : ∀ path ∈ exporter.expectedFiles (descriptors.map (·.name)), scope (tree.place path)) :
    Confined scope tree (exporter.generate descriptors tree).2 := by
  rw [generate_eq, bind_apply]
  revert prepared
  rcases exporter.prepare descriptors tree with ⟨cause | value, made⟩
  · exact id
  · intro prepared
    refine prepared.trans ((writeAll_confined exporter descriptors made).mono ?_)
    rintro names ⟨path, isExpected, rfl⟩
    rw [prepared.place_eq]
    exact expected path isExpected

/-- Whatever comes of a generation, no other file changes. -/
theorem generate_confined (exporter : BindingExport) (descriptors : List Descriptor)
    {tree : FileTree} (tidy : tree.root.Tidy) :
    Confined (exporter.Changes descriptors tree.workingDirectory) tree
      (exporter.generate descriptors tree).2 :=
  generate_confined_of_prepare (prepare_confined exporter descriptors tidy) fun path isExpected =>
    .inl ⟨path, isExpected, rfl⟩

/-- A generation that ends in an error could not go on with a file. -/
theorem fails_generate (exporter : BindingExport) (descriptors : List Descriptor) :
    Fails (fun cause => ∃ failure, cause = .file failure) (exporter.generate descriptors) := by
  rw [generate_eq]
  apply Fails.bind
  · apply Fails.bind
    · exact fails_telling _ _
    · intro _
      split
      · exact Fails.bind (fails_telling _ _) fun _ => Fails.pure _
      · exact Fails.pure _
  · intro _ tree cause failed
    rw [writeAll_eq] at failed
    dsimp only at failed
    split at failed
    · cases failed
    · next failure _ _ => exact ⟨failure, (Except.error.inj failed).symm⟩

/-- A generation without failures leaves the files that it renders. -/
theorem generate_ok {report : BindingReport}
    (ran : exporter.generate descriptors tree = (.ok report, after)) (clean : report.failures = [])
    (tidy : tree.root.Tidy) :
    ∃ writes made, exporter.writes? descriptors = some writes ∧
      Confined (exporter.Changes descriptors tree.workingDirectory) tree made ∧ Wrote writes made after := by
  have prepared := prepare_confined exporter descriptors tidy
  rw [generate_eq] at ran
  obtain ⟨value, made, went, ran⟩ := bind_eq_ok ran
  rw [went] at prepared
  rw [writeAll_eq] at ran
  dsimp only at ran
  split at ran
  · next status last indexed =>
    cases ran
    have each : exporter.writeEach descriptors made =
        (((exporter.writeEach descriptors made).1.1, []),
          (exporter.writeEach descriptors made).2) := by
      rw [← clean]
      rfl
    obtain ⟨names, codes, rendered, wrote⟩ := writeEach_ok each
    rw [names] at indexed
    exact ⟨_, made, by rw [writes?, rendered]; rfl, prepared,
      wrote.append (.of_stored (writeIfChanged_ok indexed))⟩
  · cases ran

end BindingExport
end ContractBuild
