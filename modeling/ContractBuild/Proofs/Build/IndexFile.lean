import ContractBuild.Proofs.FileTree.Spelling
import ContractBuild.Proofs.Build.NameClashes
import ContractBuild.Proofs.Build.OwnOutput

/-!
The file of the index. No module is named like the index, while a binding in TypeScript takes the name of
its descriptor as it is. A descriptor called `index` therefore has the path of the index, which is written
last and takes the place of its binding.
-/
namespace ContractBuild
open FileTree FileAction ContractBuild.Action Output

namespace Path
open FileNode (Plain)

/-! Names behind directories -/

def IsLead (lead : String) : Prop :=
  lead = "" ∨ lead.toList.getLast? = some '/'

theorem exists_lead (name : String) : ∃ lead stem, name = lead ++ stem ∧ IsLead lead ∧ '/' ∉ stem.toList := by
  have cut : ∀ chars : List Char, ∃ lead stem, chars = lead ++ stem ∧
      (lead = [] ∨ lead.getLast? = some '/') ∧ '/' ∉ stem := by
    intro chars
    induction chars with
    | nil => exact ⟨[], [], rfl, .inl rfl, List.not_mem_nil⟩
    | cons c chars ih =>
      obtain ⟨lead, stem, rfl, rfl | closed, whole⟩ := ih
      · by_cases slash : c = '/'
        · exact ⟨['/'], stem, by rw [slash]; rfl, .inr rfl, whole⟩
        · exact ⟨[], c :: stem, rfl, .inl rfl, by simp [Ne.symm slash, whole]⟩
      · refine ⟨c :: lead, stem, rfl, .inr ?_, whole⟩
        rw [List.getLast?_cons, closed]
        rfl
  obtain ⟨lead, stem, split, closed, whole⟩ := cut name.toList
  refine ⟨String.ofList lead, String.ofList stem, ?_, ?_, by rwa [String.toList_ofList]⟩
  · rw [← String.ofList_append, ← split, String.ofList_toList]
  · rw [IsLead, String.toList_ofList]
    exact closed.imp_left fun empty => by rw [empty]

/-- A name behind a lead is a name in the directory that the lead stands for. -/
theorem join_lead (base : Path) {lead name : String} (isLead : IsLead lead) (plain : Plain name) :
    base.join ⟨lead ++ name⟩ = (base.join ⟨lead⟩).join ⟨name⟩ := by
  have relative := Plain.isAbsolute_eq plain
  rw [join_of_relative (base.join ⟨lead⟩) relative]
  rcases isLead with rfl | closed
  · have bare : (Path.mk "").isAbsolute = false := rfl
    rw [String.empty_append, join_of_relative base relative, join_of_relative base bare]
    simp [separator_separator]
  · have nonempty : lead.toList ≠ [] := by
      intro empty
      rw [empty] at closed
      cases closed
    have same : (Path.mk (lead ++ name)).isAbsolute = (Path.mk lead).isAbsolute := isAbsolute_append nonempty name
    cases absolute : (Path.mk lead).isAbsolute with
    | true =>
      rw [join, join, same, absolute, if_pos rfl, if_pos rfl, separator_of_closed closed, String.append_empty]
    | false =>
      have ends : (base.text ++ separator base.text.toList ++ lead).toList.getLast? = some '/' := by
        rw [String.toList_append, List.getLast?_append, closed]
        rfl
      rw [join_of_relative base (same.trans absolute), join_of_relative base absolute, separator_of_closed ends]
      simp only [String.append_assoc, String.append_empty]

end Path

/-! The paths of bindings -/

theorem RustModule.moduleName_ne_index (name : String) : moduleName name ≠ indexStem := by
  unfold moduleName
  dsimp only
  split
  · intro same
    have last := congrArg (fun text : String => text.toList.getLast?) same
    simp [indexStem] at last
  · next free =>
    intro same
    exact free (by simp [same])

namespace TypeScript

/-- No binding reads like an index. -/
theorem render_ne_renderIndex (header : String) (plan : BindingPlan) (names : List String) :
    render header plan ≠ renderIndex header names := by
  intro same
  rw [render, renderIndex] at same
  simp only [List.append_assoc] at same
  rw [linesText_append (banner header), linesText_append (banner header), String.append_right_inj, importLines] at same
  -- behind the banner a binding begins to import, while an index begins to export or ends
  have first := congrArg (fun text : String => text.toList.head?) same
  cases names with
  | nil => simp [linesText] at first
  | cons name names => simp [linesText] at first

end TypeScript

namespace BindingExport
open FileNode (Plain)

variable {exporter : BindingExport} {α : Type}

def NamesIndex (exporter : BindingExport) (view : Path → List α) (name : String) : Prop :=
  exporter.dialect = .ethersV5 ∧ ∃ lead, Path.IsLead lead ∧ name = lead ++ TypeScript.indexStem ∧
    view (exporter.outDir.join ⟨lead⟩) = view exporter.outDir

section Views
variable {view : Path → List α} {wrap : String → α} (injective : wrap.Injective)
  (grows : ∀ (base : Path) {name : String}, Plain name → view (base.join ⟨name⟩) = view base ++ [wrap name])
include injective grows

theorem view_file_eq_iff (dialect : Dialect) {base other : Path} {one another : String}
    (wholeOne : '/' ∉ one.toList) (wholeAnother : '/' ∉ another.toList) :
    view (base.join ⟨dialect.fileName one⟩) = view (other.join ⟨dialect.fileName another⟩) ↔
      view base = view other ∧ one = another := by
  rw [grows base (dialect.plain_fileName wholeOne), grows other (dialect.plain_fileName wholeAnother),
    ← List.concat_eq_append, ← List.concat_eq_append, List.concat_inj, injective.eq_iff, Dialect.fileName, Dialect.fileName, String.append_left_inj,
    String.append_left_inj]

theorem view_bindingPath_eq_iff (name : String) :
    view (exporter.bindingPath name) = view exporter.indexPath ↔ exporter.NamesIndex view name := by
  have wholeIndex := exporter.dialect.whole_indexStem
  rw [bindingPath, indexPath, NamesIndex]
  cases dialect : exporter.dialect with
  | rust =>
    rw [dialect] at wholeIndex
    rw [show Dialect.rust.fileStem name = RustModule.moduleName name from rfl,
      view_file_eq_iff injective grows .rust (Ground.moduleName_whole name) wholeIndex]
    exact ⟨fun same => absurd same.2 (RustModule.moduleName_ne_index name), fun meets => absurd meets.1 (by decide)⟩
  | ethersV5 =>
    rw [dialect] at wholeIndex
    change '/' ∉ TypeScript.indexStem.toList at wholeIndex
    have behind : ∀ {lead stem : String}, Path.IsLead lead → '/' ∉ stem.toList →
        (view (exporter.outDir.join ⟨Dialect.ethersV5.fileName (lead ++ stem)⟩) =
          view (exporter.outDir.join ⟨Dialect.ethersV5.fileName TypeScript.indexStem⟩) ↔
          view (exporter.outDir.join ⟨lead⟩) = view exporter.outDir ∧ stem = TypeScript.indexStem) := by
      intro lead stem isLead whole
      rw [← view_file_eq_iff injective grows .ethersV5 whole wholeIndex,
        ← Path.join_lead _ isLead (Dialect.plain_fileName .ethersV5 whole)]
      simp only [Dialect.fileName, String.append_assoc]
    constructor
    · intro same
      obtain ⟨lead, stem, rfl, isLead, whole⟩ := Path.exists_lead name
      obtain ⟨there, rfl⟩ := (behind isLead whole).1 same
      exact ⟨rfl, lead, isLead, rfl, there⟩
    · rintro ⟨-, lead, isLead, rfl, there⟩
      exact (behind isLead wholeIndex).2 ⟨there, rfl⟩

end Views

/-- A generation for one descriptor leaves the index over it, and the binding as well, unless they share a
place. -/
theorem left_of_single {descriptor : Descriptor} {tree after : FileTree} {report : BindingReport}
    (ran : exporter.generate [descriptor] tree = (.ok report, after)) (clean : report.failures = [])
    (tidy : tree.root.Tidy) :
    ∃ entries code, exporter.render descriptor = .ok (entries, code) ∧
      after.fileAt (tree.place exporter.indexPath) =
        some (exporter.dialect.renderIndex [descriptor.name]).toUTF8 ∧
      (tree.place (exporter.bindingPath descriptor.name) ≠ tree.place exporter.indexPath →
        after.fileAt (tree.place (exporter.bindingPath descriptor.name)) = some code.toUTF8) := by
  obtain ⟨writes, made, isWrites, confined, wrote⟩ := generate_ok ran clean tidy
  cases rendered : exporter.render descriptor with
  | error cause =>
    rw [writes?, codes?, rendered] at isWrites
    cases isWrites
  | ok pair =>
    obtain ⟨entries, code⟩ := pair
    rw [writes?, codes?, rendered] at isWrites
    obtain rfl : [(exporter.bindingPath descriptor.name, code), exporter.indexWrite [descriptor.name]] = writes :=
      Option.some.inj isWrites
    have same := confined.workingDirectory
    refine ⟨entries, code, rfl, ?_, fun apart => ?_⟩
    · rw [wrote.fileAt_eq]
      simp [left, indexWrite, place, same]
    · have first : placeFrom tree.workingDirectory exporter.indexPath ≠
          placeFrom tree.workingDirectory (exporter.bindingPath descriptor.name) := Ne.symm apart
      rw [wrote.fileAt_eq]
      simp [left, indexWrite, place, same, first]

theorem render_ne_index {descriptor : Descriptor} {entries : List String} {code : String}
    (ethers : exporter.dialect = .ethersV5) (rendered : exporter.render descriptor = .ok (entries, code))
    (names : List String) : exporter.dialect.renderIndex names ≠ code := by
  rw [render, ethers] at rendered
  split at rendered
  · cases rendered
    rw [ethers]
    exact (TypeScript.render_ne_renderIndex Dialect.header _ names).symm
  · cases rendered

/-- The path of a binding is that of the index, and so is its place, only for names that name the index. A
generation for one descriptor leaves the index over it; it leaves the binding as well if and only if the
descriptor has no such name. -/
theorem binding_left_iff (exporter : BindingExport) (tree : FileTree) :
    (∀ name, (exporter.bindingPath name).components = exporter.indexPath.components ↔
      exporter.NamesIndex Path.components name) ∧
    (∀ name, tree.place (exporter.bindingPath name) = tree.place exporter.indexPath ↔
      exporter.NamesIndex tree.place name) ∧
    ∀ descriptor report after, tree.root.Tidy → exporter.generate [descriptor] tree = (.ok report, after) →
      report.failures = [] → ∃ entries code, exporter.render descriptor = .ok (entries, code) ∧
        after.fileAt (tree.place exporter.indexPath) =
          some (exporter.dialect.renderIndex [descriptor.name]).toUTF8 ∧
        (after.fileAt (tree.place (exporter.bindingPath descriptor.name)) = some code.toUTF8 ↔
          ¬ exporter.NamesIndex tree.place descriptor.name) := by
  have places : ∀ name, tree.place (exporter.bindingPath name) = tree.place exporter.indexPath ↔
      exporter.NamesIndex tree.place name :=
    view_bindingPath_eq_iff Function.injective_id (placeFrom_join_plain tree.workingDirectory)
  refine ⟨view_bindingPath_eq_iff (fun _ _ => Path.Component.normal.inj) Path.components_join_plain, places, ?_⟩
  intro descriptor report after tidy ran clean
  obtain ⟨entries, code, rendered, index, binding⟩ := left_of_single ran clean tidy
  refine ⟨entries, code, rendered, index, fun kept meets => ?_, fun apart => binding (mt (places _).1 apart)⟩
  rw [(places _).2 meets, index] at kept
  exact render_ne_index meets.1 rendered _ (String.toByteArray_inj.1 (Option.some.inj kept))

def scriptExport : BindingExport :=
  ⟨⟨"out"⟩, .ethersV5, false, false⟩

theorem binding_lost_of_index :
    (scriptExport.bindingPath "index").components = scriptExport.indexPath.components ∧
      ∃ report after, scriptExport.generate [⟨"index", []⟩] (FileTree.within []) = (.ok report, after) ∧
        report.failures = [] ∧ report.outputs.map (·.name) = ["index"] ∧
        ∃ entries code, scriptExport.render ⟨"index", []⟩ = .ok (entries, code) ∧
          after.fileAt ["out", "index.ts"] = some (Dialect.ethersV5.renderIndex ["index"]).toUTF8 ∧
          after.fileAt ["out", "index.ts"] ≠ some code.toUTF8 := by
  obtain ⟨paths, -, left⟩ := binding_left_iff scriptExport (FileTree.within [])
  have named : scriptExport.NamesIndex Path.components "index" :=
    ⟨rfl, "", .inl rfl, rfl, by decide +kernel⟩
  have meets : scriptExport.NamesIndex (FileTree.within []).place "index" :=
    ⟨rfl, "", .inl rfl, rfl, by decide +kernel⟩
  have tidy : (FileTree.within []).root.Tidy := FileNode.tidy_of_isTidy (by decide +kernel)
  have result : (scriptExport.generate [⟨"index", []⟩] (FileTree.within [])).1.toOption.map
      (fun report => (report.failures.length, report.outputs.map (·.name))) = some (0, ["index"]) := by
    decide +kernel
  refine ⟨(paths "index").2 named, ?_⟩
  cases ran : scriptExport.generate [⟨"index", []⟩] (FileTree.within []) with
  | mk outcome after =>
    rw [ran] at result
    cases outcome with
    | error cause => cases result
    | ok report =>
      obtain ⟨clean, names⟩ := Prod.mk.inj (Option.some.inj result)
      have clean := List.length_eq_zero_iff.1 clean
      obtain ⟨entries, code, rendered, index, binding⟩ := left ⟨"index", []⟩ report after tidy ran clean
      exact ⟨report, after, rfl, clean, names, entries, code, rendered, index, fun kept => binding.1 kept meets⟩

end BindingExport
end ContractBuild
