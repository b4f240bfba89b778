import Mathlib.Data.List.Lex
import Mathlib.Data.List.Sort
import ContractBuild.Proofs.FileTree.Nodes

/-!
Walks over the files below a node. A tidy tree is walked in the order of the names that lead to its
files, so what a walk finds depends on nothing but which files are there.
-/
namespace ContractBuild

def Path.descend (path : Path) (names : List String) : Path :=
  names.foldl (fun path name => path.join ⟨name⟩) path

namespace FileNode
open FileTree (pathLimit)

mutual

def leaves : FileNode → List (List String)
  | file _ => [[]]
  | directory entries => leavesAmong entries

def leavesAmong : List (String × FileNode) → List (List String)
  | [] => []
  | (name, node) :: entries => (leaves node).map (name :: ·) ++ leavesAmong entries

end

theorem head_of_mem_leavesAmong {entries : List (String × FileNode)} {names : List String}
    (member : names ∈ leavesAmong entries) :
    ∃ entry ∈ entries, ∃ rest ∈ entry.2.leaves, names = entry.1 :: rest := by
  induction entries with
  | nil => cases member
  | cons entry entries ih =>
    obtain ⟨name, node⟩ := entry
    rw [leavesAmong, List.mem_append] at member
    rcases member with here | later
    · obtain ⟨rest, inside, rfl⟩ := List.mem_map.1 here
      exact ⟨(name, node), List.mem_cons_self, rest, inside, rfl⟩
    · obtain ⟨other, there, found⟩ := ih later
      exact ⟨other, List.mem_cons_of_mem _ there, found⟩

end FileNode

def Path.reaches : Path → List String → Bool
  | _, [] => true
  | path, name :: names => path.text.utf8ByteSize ≤ FileTree.pathLimit && (path.join ⟨name⟩).reaches names

namespace FileNode
open FileTree (pathLimit)

theorem filter_reaches_cons {path : Path} (fits : path.text.utf8ByteSize ≤ pathLimit) (name : String)
    (leaves : List (List String)) :
    (leaves.map (name :: ·)).filter path.reaches = (leaves.filter (path.join ⟨name⟩).reaches).map (name :: ·) := by
  rw [List.filter_map]
  congr 2
  funext names
  simp [Path.reaches, fits]

mutual

theorem reached_walkFrom (path : Path) : ∀ node : FileNode,
    (walkFrom path node).filterMap Except.toOption = (node.leaves.filter path.reaches).map path.descend
  | file _ => rfl
  | directory entries => by
    rw [walkFrom, leaves]
    split
    · next long =>
      have unreached : (leavesAmong entries).filter path.reaches = [] := by
        rw [List.filter_eq_nil_iff]
        intro names member
        obtain ⟨entry, -, rest, -, rfl⟩ := head_of_mem_leavesAmong member
        simp [Path.reaches, Nat.not_le.2 long]
      rw [unreached]
      rfl
    · next fits => exact reached_walkAmong path (Nat.le_of_not_lt fits) entries

theorem reached_walkAmong (path : Path) (fits : path.text.utf8ByteSize ≤ pathLimit) :
    ∀ entries : List (String × FileNode),
      (walkAmong path entries).filterMap Except.toOption =
        ((leavesAmong entries).filter path.reaches).map path.descend
  | [] => rfl
  | (name, node) :: entries => by
    rw [walkAmong, leavesAmong, List.filterMap_append, reached_walkFrom (path.join ⟨name⟩) node,
      reached_walkAmong path fits entries, List.filter_append, List.map_append, filter_reaches_cons fits,
      List.map_map]
    rfl

end

theorem mem_walkAmong {path : Path} {entries : List (String × FileNode)} {met : Except FileError Path} :
    met ∈ walkAmong path entries ↔ ∃ entry ∈ entries, met ∈ walkFrom (path.join ⟨entry.1⟩) entry.2 := by
  induction entries with
  | nil => simp [walkAmong]
  | cons entry entries ih =>
    rw [walkAmong, List.mem_append, ih]
    simp

theorem mem_leavesAmong {entries : List (String × FileNode)} {entry : String × FileNode}
    (member : entry ∈ entries) {rest : List String} (inside : rest ∈ entry.2.leaves) :
    entry.1 :: rest ∈ leavesAmong entries := by
  induction entries with
  | nil => cases member
  | cons first entries ih =>
    obtain ⟨name, node⟩ := first
    rw [leavesAmong, List.mem_append]
    rcases List.mem_cons.1 member with rfl | later
    · exact .inl (List.mem_map_of_mem inside)
    · exact .inr (ih later)

theorem entryOf?_of_mem {entries : List (String × FileNode)} (ordered : Ordered entries)
    {entry : String × FileNode} (member : entry ∈ entries) : entryOf? entry.1 entries = some entry.2 := by
  induction entries with
  | nil => cases member
  | cons first entries ih =>
    obtain ⟨name, node⟩ := first
    rcases List.mem_cons.1 member with rfl | later
    · simp [entryOf?]
    · have differs : name ≠ entry.1 := (ordered.head_lt later).ne
      rw [entryOf?, if_neg differs]
      exact ih ordered.tail later

/-- A walk finds just the files that are there. -/
theorem mem_leaves {node : FileNode} (tidy : node.Tidy) {names : List String} :
    names ∈ node.leaves ↔ ∃ content, node.get? names = some (file content) := by
  induction tidy generalizing names with
  | file content =>
    cases names with
    | nil => simp [leaves, get?]
    | cons name names => simp [leaves, get?]
  | @directory entries ordered plain inner ih =>
    rw [leaves]
    constructor
    · intro member
      obtain ⟨entry, there, rest, inside, rfl⟩ := head_of_mem_leavesAmong member
      obtain ⟨content, found⟩ := (ih entry there).1 inside
      refine ⟨content, ?_⟩
      rw [get?, entryOf?_of_mem ordered there, Option.bind_some, found]
    · rintro ⟨content, found⟩
      cases names with
      | nil => cases found
      | cons name rest =>
        rw [get?, Option.bind_eq_some_iff] at found
        obtain ⟨child, entry, found⟩ := found
        have there := mem_of_entryOf? entry
        exact mem_leavesAmong there ((ih (name, child) there).2 ⟨content, found⟩)

/-- A walk meets an error for each directory that it comes to and whose path is too long. -/
theorem error_of_mem_walkFrom {node : FileNode} (tidy : node.Tidy) {path : Path} {cause : FileError}
    (member : .error cause ∈ walkFrom path node) : ∃ names entries,
      node.get? names = some (directory entries) ∧ pathLimit < (path.descend names).text.utf8ByteSize ∧
        cause = .unopened (path.descend names) := by
  induction tidy generalizing path with
  | file content => simp [walkFrom] at member
  | @directory entries ordered _ _ ih =>
    rw [walkFrom] at member
    split at member
    · next long =>
      cases List.mem_singleton.1 member
      exact ⟨[], entries, rfl, long, rfl⟩
    · obtain ⟨entry, there, inside⟩ := mem_walkAmong.1 member
      obtain ⟨names, inner, found, long, rfl⟩ := ih entry there inside
      refine ⟨entry.1 :: names, inner, ?_, long, rfl⟩
      rw [get?, entryOf?_of_mem ordered there, Option.bind_some, found]

/-- Where all directories can be opened, a walk meets just the files. -/
theorem walkFrom_eq {node : FileNode} (tidy : node.Tidy) {path : Path}
    (opens : ∀ names entries, node.get? names = some (directory entries) →
      (path.descend names).text.utf8ByteSize ≤ pathLimit) :
    walkFrom path node = ((walkFrom path node).filterMap Except.toOption).map .ok := by
  have all : ∀ met ∈ walkFrom path node, ∃ found, met = .ok found := by
    rintro (cause | found) member
    · obtain ⟨names, entries, there, long, -⟩ := error_of_mem_walkFrom tidy member
      exact absurd (opens names entries there) (Nat.not_le.2 long)
    · exact ⟨found, rfl⟩
  generalize walkFrom path node = walk at all
  induction walk with
  | nil => rfl
  | cons met others ih =>
    obtain ⟨found, rfl⟩ := all met List.mem_cons_self
    exact congrArg (Except.ok found :: ·) (ih fun other later => all other (List.mem_cons_of_mem _ later))

/-- A directory that is too deep for its path stops the walk, there or at an earlier one. -/
theorem exists_error_mem_walkFrom {node : FileNode} {path : Path} {names : List String}
    {entries : List (String × FileNode)} (found : node.get? names = some (directory entries))
    (long : pathLimit < (path.descend names).text.utf8ByteSize) : ∃ cause, .error cause ∈ walkFrom path node := by
  induction names generalizing node path with
  | nil =>
    cases found
    have here : path.text.utf8ByteSize > pathLimit := long
    rw [walkFrom, if_pos here]
    exact ⟨_, List.mem_singleton_self _⟩
  | cons name names ih =>
    cases node with
    | file content => cases found
    | directory others =>
      rw [walkFrom]
      split
      · exact ⟨_, List.mem_singleton_self _⟩
      · rw [get?, Option.bind_eq_some_iff] at found
        obtain ⟨child, entry, found⟩ := found
        obtain ⟨cause, member⟩ := ih found long
        exact ⟨cause, mem_walkAmong.2 ⟨(name, child), mem_of_entryOf? entry, member⟩⟩

theorem reaches_of_fits {node : FileNode} {path : Path} {names : List String} {content : ByteArray}
    (fits : ∀ names entries, node.get? names = some (directory entries) →
      (path.descend names).text.utf8ByteSize ≤ pathLimit)
    (found : node.get? names = some (file content)) : path.reaches names = true := by
  induction names generalizing node path with
  | nil => rfl
  | cons name names ih =>
    cases node with
    | file other => cases found
    | directory entries =>
      rw [get?, Option.bind_eq_some_iff] at found
      obtain ⟨child, entry, found⟩ := found
      have here : path.text.utf8ByteSize ≤ pathLimit := fits [] entries rfl
      rw [Path.reaches, decide_eq_true here, Bool.true_and]
      refine ih (fun others inner there => fits (name :: others) inner ?_) found
      rw [get?, entry]
      exact there

theorem sorted_leavesAmong {entries : List (String × FileNode)} (ordered : Ordered entries)
    (inner : ∀ entry ∈ entries, entry.2.leaves.Pairwise (· < ·)) :
    (leavesAmong entries).Pairwise (· < ·) := by
  induction entries with
  | nil => exact .nil
  | cons entry entries ih =>
    obtain ⟨name, node⟩ := entry
    rw [leavesAmong, List.pairwise_append]
    refine ⟨?_, ih ordered.tail fun other member => inner other (List.mem_cons_of_mem _ member), ?_⟩
    · rw [List.pairwise_map]
      exact (inner (name, node) List.mem_cons_self).imp fun lt => List.Lex.cons lt
    · intro names here others later
      obtain ⟨rest, _, rfl⟩ := List.mem_map.1 here
      obtain ⟨other, there, more, _, rfl⟩ := head_of_mem_leavesAmong later
      exact List.Lex.rel (ordered.head_lt there)

theorem sorted_leaves {node : FileNode} (tidy : node.Tidy) : node.leaves.Pairwise (· < ·) := by
  induction tidy with
  | file content => exact List.pairwise_singleton _ _
  | directory ordered _ _ ih => exact sorted_leavesAmong ordered ih

/-- Two walks that look for files of one kind find the same if both nodes have the same of them. -/
theorem filter_leaves_eq {node other : FileNode} (tidy : node.Tidy) (tidyOther : other.Tidy)
    {wanted : List String → Bool}
    (same : ∀ names, wanted names = true → ((∃ content, node.get? names = some (file content)) ↔
      ∃ content, other.get? names = some (file content))) :
    node.leaves.filter wanted = other.leaves.filter wanted := by
  refine ((sorted_leaves tidy).filter wanted).eq_of_mem_iff ((sorted_leaves tidyOther).filter wanted) ?_
  intro names
  rw [List.mem_filter, List.mem_filter, mem_leaves tidy, mem_leaves tidyOther]
  constructor
  · rintro ⟨found, isWanted⟩
    exact ⟨(same names isWanted).1 found, isWanted⟩
  · rintro ⟨found, isWanted⟩
    exact ⟨(same names isWanted).2 found, isWanted⟩

end FileNode
end ContractBuild
