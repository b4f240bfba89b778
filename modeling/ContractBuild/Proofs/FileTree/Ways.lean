import ContractBuild.Proofs.Build.Outputs
import ContractBuild.Proofs.FileTree.Respelt
import ContractBuild.Proofs.FileTree.Views

/-!
Directories that come to be. Creating a directory adds none but those on the way of its path, and a file that is
written behind a path needs no others.
-/
namespace ContractBuild
open FileTree FileAction ContractBuild.Action
open Text
open FileNode (Plain)

namespace FileTree

def OnWay (workingDirectory : List String) (path : Path) (names : List String) : Prop :=
  names ∈ wayFrom workingDirectory path ∨ names = placeFrom workingDirectory path

def Adds (allowed : List String → Prop) (before after : FileTree) : Prop :=
  ∀ names, after.IsDirectoryAt names → before.IsDirectoryAt names ∨ allowed names

variable {allowed : List String → Prop} {before middle after tree : FileTree} {base path : Path}

theorem Adds.refl (tree : FileTree) : Adds allowed tree tree :=
  fun _ => .inl

theorem Adds.trans (earlier : Adds allowed before middle) (later : Adds allowed middle after) :
    Adds allowed before after := by
  intro names isDirectory
  obtain there | fine := later names isDirectory
  · exact earlier names there
  · exact .inr fine

theorem NoNewDirectories.adds (none : NoNewDirectories before after) : Adds allowed before after :=
  fun names isDirectory => .inl (none names isDirectory)

theorem mem_trail_self (current : List String) (segments : List (List Char)) :
    current ∈ trail current segments ∨ current = settle current segments := by
  cases segments with
  | nil => exact .inr rfl
  | cons segment segments => exact .inl List.mem_cons_self

theorem onWay_iff {workingDirectory names : List String} : OnWay workingDirectory path names ↔
    names ∈ trail (if path.isAbsolute then [] else workingDirectory) (Path.named path.text.toList) ∨
      names = settle (if path.isAbsolute then [] else workingDirectory) (Path.named path.text.toList) := by
  have there : placeFrom workingDirectory path =
      settle (if path.isAbsolute then [] else workingDirectory) (Path.named path.text.toList) :=
    Path.placeFrom_eq_named workingDirectory path
  rw [OnWay, there, wayFrom, ← Path.filter_segments, Path.settle_filter]
  constructor
  · rintro (along | last)
    · exact mem_trail_filter along
    · exact .inr last
  · exact Or.imp_left mem_trail_of_filter

/-- Paths that are spelled anew have one way. -/
theorem onWay_of_respells {workingDirectory names : List String} (respells : path.Respells base)
    (onWay : OnWay workingDirectory path names) : OnWay workingDirectory base names := by
  rw [onWay_iff, respells.absolute, respells.names] at onWay
  exact onWay_iff.2 onWay

theorem respells_parent_join (base : Path) {name : String} (plain : Plain name) :
    ∃ parent, (base.join ⟨name⟩).parent? = some parent ∧ parent.Respells base := by
  obtain ⟨parent, isParent, named, absolute, relative, -⟩ := Path.parent_spec (named_join base plain)
  have joined : (base.join ⟨name⟩).isAbsolute = base.isAbsolute := by
    rw [Path.isAbsolute_join, Plain.isAbsolute_eq plain, Bool.false_or]
  refine ⟨parent, isParent, ?_, named⟩
  by_cases empty : parent.text.toList = []
  · rw [← joined, relative empty, Path.isAbsolute, empty]
    rfl
  · rw [absolute empty, joined]

end FileTree

namespace FileAction

variable {allowed : List String → Prop} {tree : FileTree}

theorem adds_attempt {α : Type} {operation : FileTree → Except FileError (α × FileTree)}
    (adds : ∀ left value after, operation (withFault tree left) = .ok (value, after) →
      Adds allowed (withFault tree left) after) : Adds allowed tree (attempt operation tree).2 := by
  cases ran : attempt operation tree with
  | mk outcome after =>
    cases outcome with
    | error cause => exact (attempt_error ran).noNewDirectories.adds
    | ok value =>
      obtain ⟨left, quiet, went⟩ := attempt_ok ran
      exact (sameFiles_withFault quiet).noNewDirectories.adds.trans (adds left value after went)

theorem ensureDirectory_adds (names : List String) (tree : FileTree) :
    Adds (· = names) tree (ensureDirectory names tree).2 := by
  refine adds_attempt fun left value after ran => ?_
  cases found : (withFault tree left).root.get? names with
  | none =>
    rw [found] at ran
    cases ran
    intro other isDirectory
    obtain same | ⟨here, -⟩ := sight_placed_directory found other
    · exact .inl (same.symm.trans isDirectory)
    · exact .inr here
  | some node =>
    rw [found] at ran
    cases node with
    | directory entries =>
      cases ran
      exact .refl _
    | file content => cases ran

theorem createAlong_adds (current : List String) (segments : List (List Char)) (tree : FileTree) :
    Adds (fun names => names ∈ trail current segments ∨ names = settle current segments) tree
      (createAlong current segments tree).2 := by
  induction segments generalizing current tree with
  | nil => exact .refl tree
  | cons segment segments ih =>
    have along : ∀ {next names}, (names ∈ trail next segments ∨ names = settle next segments) →
        trail current (segment :: segments) = current :: trail next segments →
        settle current (segment :: segments) = settle next segments →
        names ∈ trail current (segment :: segments) ∨ names = settle current (segment :: segments) := by
      intro next names onWay trails settles
      rw [trails, settles]
      exact onWay.imp_left (List.mem_cons_of_mem current)
    rw [createAlong]
    split
    · next idle =>
      have rest := ih current tree
      exact fun names isDirectory => (rest names isDirectory).imp_right fun onWay =>
        along onWay (by rw [trail, if_pos idle]) (by rw [settle, if_pos idle])
    · next named =>
      split
      · next up =>
        have rest := ih current.dropLast tree
        exact fun names isDirectory => (rest names isDirectory).imp_right fun onWay =>
          along onWay (by rw [trail, if_neg named, if_pos up]) (by rw [settle, if_neg named, if_pos up])
      · next down =>
        split
        · exact .refl tree
        · have first := ensureDirectory_adds (current ++ [String.ofList segment]) tree
          have onWay : ∀ names, names ∈ trail (current ++ [String.ofList segment]) segments ∨
              names = settle (current ++ [String.ofList segment]) segments →
              names ∈ trail current (segment :: segments) ∨ names = settle current (segment :: segments) :=
            fun names onWay => along onWay (by rw [trail, if_neg named, if_neg down])
              (by rw [settle, if_neg named, if_neg down])
          have here : Adds (fun names => names ∈ trail current (segment :: segments) ∨
              names = settle current (segment :: segments)) tree
              (ensureDirectory (current ++ [String.ofList segment]) tree).2 :=
            fun names isDirectory => (first names isDirectory).imp_right fun same => by
              subst same
              exact onWay _ (mem_trail_self _ segments)
          rw [bind_apply]
          revert here
          rcases ensureDirectory (current ++ [String.ofList segment]) tree with ⟨cause | value, made⟩
          · exact id
          · exact fun here => here.trans fun names isDirectory =>
              (ih _ made names isDirectory).imp_right (onWay names)

theorem createDirectories_adds (path : Path) (tree : FileTree) :
    Adds (OnWay tree.workingDirectory path) tree (createDirectories path tree).2 := by
  rw [createDirectories_eq]
  split
  · exact .refl tree
  · split
    · exact .refl tree
    · intro names isDirectory
      refine (createAlong_adds _ _ tree names isDirectory).imp_right fun onWay => ?_
      rwa [settle_segments] at onWay

theorem replaceFile_noNewDirectories (directory path : Path) (content : ByteArray) (tree : FileTree) :
    NoNewDirectories tree (replaceFile directory path content tree).2 := by
  cases ran : replaceFile directory path content tree with
  | mk outcome after =>
    cases outcome with
    | error cause => exact (replaceFile_error ran).noNewDirectories
    | ok value =>
      obtain ⟨left, quiet, went⟩ := attempt_ok ran
      obtain ⟨location, located, asFile, free, rfl⟩ := storeAt_ok (replaceFile_steps went)
      obtain ⟨names, usable⟩ := locate_ok located
      exact (sameFiles_withFault quiet).noNewDirectories.trans
        (noNewDirectories_placed (names ▸ usable.reaches) free content)

end FileAction

namespace Output

theorem rewrite_adds (directory path : Path) (content : ByteArray) (tree : FileTree) :
    Adds (OnWay tree.workingDirectory directory) tree (rewrite directory path content tree).2 := by
  have created := createDirectories_adds directory tree
  unfold rewrite
  rw [bind_apply]
  revert created
  rcases createDirectories directory tree with ⟨cause | value, made⟩
  · exact id
  · intro created
    have replaced : Adds (OnWay tree.workingDirectory directory) made (replaceFile directory path content made).2 :=
      (replaceFile_noNewDirectories directory path content made).adds
    dsimp only
    rw [bind_apply]
    revert replaced
    rcases replaceFile directory path content made with ⟨cause | value, after⟩
    all_goals exact fun replaced => created.trans replaced

/-- Writing a file behind a path adds no directory but on the way of the path. -/
theorem writeIfChanged_adds (base : Path) {name : String} (plain : Plain name) (text : String) (tree : FileTree) :
    Adds (OnWay tree.workingDirectory base) tree (writeIfChanged (base.join ⟨name⟩) text tree).2 := by
  obtain ⟨parent, isParent, respells⟩ := respells_parent_join base plain
  rw [writeIfChanged_eq, isParent, Option.getD_some]
  have same := reads_existing? (base.join ⟨name⟩) tree
  revert same
  rcases existing? (base.join ⟨name⟩) tree with ⟨cause | found, read⟩
  · exact fun same => same.noNewDirectories.adds
  · intro same
    dsimp only
    split
    · exact same.noNewDirectories.adds
    · have rewritten := rewrite_adds parent (base.join ⟨name⟩) text.toUTF8 read
      rw [same.workingDirectory] at rewritten
      exact same.noNewDirectories.adds.trans fun names isDirectory =>
        (rewritten names isDirectory).imp_right (onWay_of_respells respells)

end Output
end ContractBuild
