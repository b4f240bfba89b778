import Mathlib.Data.String.Basic
import ContractBuild.Proofs.Store.Shelves

/-!
What a store finds when it is opened. It has the artifacts whose files are named after them, one for
each such file, in the order of their names; so two stores that are opened on the same files are the
same.
-/
namespace ContractBuild.Store
open FileTree FileAction ContractBuild.Action FileNode

/-! The order of the entries -/

def InOrder (live : List Artifact) : Prop :=
  live.Pairwise fun one other => one.name < other.name

variable {live other : List Artifact} {name : String}

theorem InOrder.insertArtifact (ordered : InOrder live) (artifact : Artifact) :
    InOrder (insertArtifact artifact live) := by
  induction live with
  | nil => exact List.pairwise_singleton _ _
  | cons first live ih =>
    obtain ⟨below, rest⟩ := List.pairwise_cons.1 ordered
    rw [Store.insertArtifact]
    by_cases taken : first.name = artifact.name
    · rw [if_pos taken]
      exact List.pairwise_cons.2 ⟨fun other member => taken ▸ below other member, rest⟩
    · rw [if_neg taken]
      by_cases before : artifact.name < first.name
      · rw [if_pos before]
        refine List.pairwise_cons.2 ⟨fun other member => ?_, ordered⟩
        rcases List.mem_cons.1 member with rfl | later
        · exact before
        · exact before.trans (below other later)
      · rw [if_neg before]
        refine List.pairwise_cons.2 ⟨fun other member => ?_, ih rest⟩
        rcases mem_insertArtifact member with rfl | old
        · exact lt_of_le_of_ne (not_lt.1 before) taken
        · exact below other old

theorem InOrder.filter (ordered : InOrder live) (wanted : Artifact → Bool) : InOrder (live.filter wanted) :=
  List.Pairwise.filter wanted ordered

theorem InOrder.names (ordered : InOrder live) : (live.map (·.name)).Nodup :=
  List.pairwise_map.2 (ordered.imp ne_of_lt)

theorem InOrder.find?_eq_some (ordered : InOrder live) {artifact : Artifact} :
    live.find? (·.name = name) = some artifact ↔ artifact ∈ live ∧ artifact.name = name := by
  constructor
  · exact fun found => ⟨List.mem_of_find?_eq_some found, by simpa using List.find?_some found⟩
  · rintro ⟨member, rfl⟩
    cases found : live.find? (·.name = artifact.name) with
    | none => simpa using List.find?_eq_none.1 found artifact member
    | some first =>
      have same : first.name = artifact.name := by simpa using List.find?_some found
      rw [List.inj_on_of_nodup_map ordered.names (List.mem_of_find?_eq_some found) member same]

/-- Ordered lists in which the same is found are the same. -/
theorem InOrder.ext (ordered : InOrder live) (orderedToo : InOrder other)
    (same : ∀ name, live.find? (·.name = name) = other.find? (·.name = name)) : live = other := by
  refine List.Pairwise.eq_of_mem_iff ordered orderedToo fun artifact => ?_
  have within : ∀ {some : List Artifact}, InOrder some →
      (artifact ∈ some ↔ some.find? (·.name = artifact.name) = .some artifact) := fun inOrder =>
    ⟨fun member => inOrder.find?_eq_some.2 ⟨member, rfl⟩, fun found => (inOrder.find?_eq_some.1 found).1⟩
  rw [within ordered, within orderedToo, same]

/-! Reading files -/

variable {tree : FileTree} {directory : Path}

def IsStem (name : String) : Prop :=
  name ≠ "" ∧ '/' ∉ name.toList

instance (name : String) : Decidable (IsStem name) :=
  inferInstanceAs (Decidable (_ ∧ _))

def fileName (name : String) : String :=
  name ++ "." ++ fileExtension

theorem pathFor_eq (store : Store) (name : String) :
    store.pathFor name = store.directory.join ⟨fileName name⟩ := by
  rw [pathFor, fileName]

theorem fileName_injective {one other : String} (same : fileName one = fileName other) : one = other := by
  have chars := congrArg String.toList same
  simp only [fileName, String.toList_append, List.append_assoc] at chars
  exact String.toList_injective (List.append_cancel_right chars)

theorem fileName_eq (name : String) : fileName name = name ++ ".json" :=
  String.append_assoc ..

theorem exists_fileName {entry : String} (ends : ".json".toList <:+ entry.toList) :
    ∃ name, entry = fileName name := by
  obtain ⟨front, text⟩ := ends
  refine ⟨String.ofList front, String.toList_injective ?_⟩
  rw [fileName_eq, String.toList_append, String.toList_ofList, text]

theorem plain_fileName (whole : '/' ∉ name.toList) : Plain (fileName name) :=
  suffix_fileExtension.plain whole

theorem splitName_fileName (stem : IsStem name) :
    Path.splitName (fileName name) = (name, some fileExtension) :=
  Path.splitName_dotted stem.1 suffix_fileExtension.noDot

theorem extension?_join {entry : String} (plain : Plain entry) :
    (directory.join ⟨entry⟩).extension? = some fileExtension ↔ ∃ name, IsStem name ∧ entry = fileName name := by
  rw [Path.extension?, Path.fileName?_join plain, Option.bind_some]
  constructor
  · intro split
    obtain ⟨filled, made⟩ := Path.eq_of_splitName (Prod.ext rfl split)
    refine ⟨_, ⟨filled, fun separated => plain.whole ?_⟩, made⟩
    rw [made, String.toList_append, String.toList_append, List.append_assoc]
    exact List.mem_append_left _ separated
  · rintro ⟨name, stem, rfl⟩
    rw [splitName_fileName stem]

theorem fileStem?_join (stem : IsStem name) : (directory.join ⟨fileName name⟩).fileStem? = some name := by
  rw [Path.fileStem?, Path.fileName?_join (plain_fileName stem.2), Option.map_some,
    splitName_fileName stem]

def kept? (tree : FileTree) (directory : Path) (name : String) : Option Artifact :=
  if IsStem name ∧ refusal? directory (fileName name) = none then
    ((tree.fileAt (tree.place (directory.join ⟨fileName name⟩))).bind Artifact.held?).filter (·.name = name)
  else none

theorem name_of_kept? {artifact : Artifact} (kept : kept? tree directory name = some artifact) :
    artifact.name = name := by
  unfold kept? at kept
  split at kept
  · simpa using (Option.filter_eq_some_iff.1 kept).2
  · cases kept

theorem existing?_join (houses : tree.Houses directory) {entry : String} (plain : Plain entry) :
    Output.existing? (directory.join ⟨entry⟩) tree =
      (.ok (if refusal? directory entry = none then tree.fileAt (tree.place (directory.join ⟨entry⟩)) else none),
        tree) := by
  unfold Output.existing? readBytes
  rw [attempt_quiet _ houses.quiet, houses.node_join plain]
  cases refusal? directory entry with
  | some cause => rfl
  | none =>
    rw [if_pos rfl, fileAt, sight]
    cases tree.root.get? (tree.place (directory.join ⟨entry⟩)) with
    | none => rfl
    | some node => cases node <;> rfl

theorem readArtifact?_fileName (houses : tree.Houses directory) (stem : IsStem name) :
    readArtifact? (directory.join ⟨fileName name⟩) tree = (.ok (kept? tree directory name), tree) := by
  rw [readArtifact?, bind_of_ok (existing?_join houses (plain_fileName stem.2)), kept?,
    fileStem?_join stem]
  have turned : ∀ artifact : Artifact, (some name = some artifact.name) = (artifact.name = name) := fun artifact => by
    rw [Option.some.injEq]
    exact propext eq_comm
  by_cases admitted : refusal? directory (fileName name) = none
  · rw [if_pos admitted, if_pos ⟨stem, admitted⟩]
    cases tree.fileAt (tree.place (directory.join ⟨fileName name⟩)) with
    | none => rfl
    | some content =>
      simp only [turned]
      rfl
  · rw [if_neg admitted, if_neg fun both => admitted both.2]
    rfl

/-- Reading files one after another finds what is kept in those of them that have a stem. -/
theorem readAll_eq (houses : tree.Houses directory) {entries : List String}
    (plain : ∀ entry ∈ entries, Plain entry) (found : List Artifact) :
    ∃ live, readAll directory found entries tree = (.ok live, tree) ∧ (InOrder found → InOrder live) ∧
      ∀ name, live.find? (·.name = name) =
        (if fileName name ∈ entries then kept? tree directory name else none).or
          (found.find? (·.name = name)) := by
  -- a file that is read later replaces what was found before under its name
  induction entries generalizing found with
  | nil => exact ⟨found, rfl, id, fun name => rfl⟩
  | cons entry entries ih =>
    obtain ⟨isPlain, plainRest⟩ := List.forall_mem_cons.1 plain
    rw [readAll]
    by_cases isRecord : (directory.join ⟨entry⟩).extension? = some fileExtension
    · obtain ⟨name, stem, rfl⟩ := (extension?_join isPlain).1 isRecord
      rw [if_pos isRecord, bind_of_ok (readArtifact?_fileName houses stem)]
      have others : ∀ other, other ≠ name →
          (fileName other ∈ fileName name :: entries ↔ fileName other ∈ entries) := fun other differs => by
        rw [List.mem_cons, or_iff_right fun same => differs (fileName_injective same)]
      cases kept : kept? tree directory name with
      | none =>
        obtain ⟨live, ran, ordered, finds⟩ := ih plainRest found
        refine ⟨live, ran, ordered, fun other => ?_⟩
        rw [finds]
        by_cases same : other = name
        · rw [same, kept, ite_self, ite_self]
        · simp only [others other same]
      | some artifact =>
        obtain ⟨live, ran, ordered, finds⟩ := ih plainRest (insertArtifact artifact found)
        refine ⟨live, ran, fun inOrder => ordered (inOrder.insertArtifact artifact), fun other => ?_⟩
        rw [finds]
        have named : artifact.name = name := name_of_kept? kept
        by_cases same : other = name
        · rw [same, if_pos List.mem_cons_self, kept, ← named, find?_insertArtifact_self]
          split <;> rfl
        · rw [find?_insertArtifact_of_ne (named ▸ same)]
          simp only [others other same]
    · rw [if_neg isRecord]
      obtain ⟨live, ran, ordered, finds⟩ := ih plainRest found
      refine ⟨live, ran, ordered, fun name => ?_⟩
      rw [finds]
      by_cases stem : IsStem name
      · have apart : fileName name ≠ entry := fun same =>
          isRecord ((extension?_join isPlain).2 ⟨name, stem, same.symm⟩)
        simp [apart]
      · have none : kept? tree directory name = none := if_neg fun both => stem both.1
        rw [none, ite_self, ite_self]

/-- A store that is opened on a directory that is there has what is kept in it. -/
theorem load_of_houses {cache : Path} (houses : tree.Houses (artifactsDir cache)) :
    ∃ live, load cache tree = (.ok ⟨artifactsDir cache, live, [], ⟨0, 0, 0, 0⟩⟩, tree) ∧ InOrder live ∧
      ∀ name, live.find? (·.name = name) = kept? tree (artifactsDir cache) name := by
  obtain ⟨entries, listed, _, plain, there⟩ := houses.listDirectory_eq
  obtain ⟨live, ran, ordered, finds⟩ := readAll_eq houses plain []
  refine ⟨live, ?_, ordered .nil, fun name => ?_⟩
  · unfold load
    rw [bind_of_ok houses.createDirectories_eq, bind_of_ok listed, bind_of_ok ran]
    rfl
  · rw [finds, List.find?_nil, Option.or_none]
    split
    · rfl
    · next absent =>
      unfold kept?
      split
      · next both =>
        rw [there _ (plain_fileName both.1.2), not_not] at absent
        rw [fileAt, absent]
        rfl
      · rfl

/-- Opening a store creates its directory. -/
theorem houses_of_load {cache : Path} {before : FileTree} {store : Store} (quiet : before.faultAfter = none)
    (tidy : before.root.Tidy) (inside : before.IsInside) (opened : load cache before = (.ok store, tree)) :
    tree.Houses (artifactsDir cache) ∧ load cache tree = (.ok store, tree) ∧
      Confined (fun _ => False) before tree := by
  have created : Confined (fun _ => False) before (createDirectories (artifactsDir cache) before).2 :=
    createDirectories_confined _ before
  unfold load at opened
  obtain ⟨_, made, creates, rest⟩ := bind_eq_ok opened
  rw [creates] at created
  have filled : (artifactsDir cache).text.toList ≠ [] := by
    obtain ⟨front, text⟩ := @toList_join cache "artifacts" ⟨by decide, by decide, by decide, by decide⟩
    rw [artifactsDir, text]
    exact List.append_ne_nil_of_right_ne_nil _ (by decide)
  have houses : made.Houses (artifactsDir cache) :=
    ⟨created.quiet quiet, created.tidy tidy, created.isInside inside,
      isDirectory_of_created creates inside filled⟩
  obtain ⟨live, ran, _⟩ := load_of_houses houses
  -- creating the directory again changes nothing, so the store is the one that was opened
  have same : load cache made = (.ok store, tree) := by
    unfold load
    rw [bind_of_ok houses.createDirectories_eq]
    exact rest
  rw [ran] at same
  cases same
  exact ⟨houses, ran, created⟩

theorem store_of_load {cache : Path} {before : FileTree} {store : Store} (quiet : before.faultAfter = none)
    (tidy : before.root.Tidy) (inside : before.IsInside) (opened : load cache before = (.ok store, tree)) :
    ∃ live, store = ⟨artifactsDir cache, live, [], ⟨0, 0, 0, 0⟩⟩ ∧ InOrder live ∧
      ∀ name, live.find? (·.name = name) = kept? tree (artifactsDir cache) name := by
  obtain ⟨houses, again, _⟩ := houses_of_load quiet tidy inside opened
  obtain ⟨live, ran, ordered, finds⟩ := load_of_houses houses
  rw [ran] at again
  exact ⟨live, (Except.ok.inj (congrArg Prod.fst again)).symm, ordered, finds⟩

end ContractBuild.Store
