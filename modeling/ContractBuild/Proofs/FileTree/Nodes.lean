import Mathlib.Data.String.Basic
import ContractBuild.FileTree

/-!
What stands under sequences of names in a tree of files, before and after a node is put in a place
or taken away. Only the place itself changes, as long as the directories that lead to it are there.
-/
namespace ContractBuild.FileNode

/-! Entries of one directory -/

theorem entryOf?_putEntry_self (name : String) (node : FileNode)
    (entries : List (String × FileNode)) :
    entryOf? name (putEntry name node entries) = some node := by
  induction entries with
  | nil => simp [putEntry, entryOf?]
  | cons entry entries ih =>
    obtain ⟨other, old⟩ := entry
    simp only [putEntry]
    split
    · simp [entryOf?]
    · next differs =>
      split
      · simp [entryOf?]
      · simp [entryOf?, differs, ih]

theorem entryOf?_putEntry_of_ne {name other : String} (differs : other ≠ name) (node : FileNode)
    (entries : List (String × FileNode)) :
    entryOf? other (putEntry name node entries) = entryOf? other entries := by
  have passed : ¬ name = other := fun same => differs same.symm
  induction entries with
  | nil => simp [putEntry, entryOf?, passed]
  | cons entry entries ih =>
    obtain ⟨first, old⟩ := entry
    simp only [putEntry]
    split
    · next same => simp [entryOf?, passed, same]
    · split
      · simp [entryOf?, passed]
      · simp only [entryOf?, ih]

theorem entryOf?_dropEntry_of_ne {name other : String} (differs : other ≠ name)
    (entries : List (String × FileNode)) :
    entryOf? other (dropEntry name entries) = entryOf? other entries := by
  induction entries with
  | nil => rfl
  | cons entry entries ih =>
    obtain ⟨first, old⟩ := entry
    simp only [dropEntry]
    split
    · next same =>
      have passed : ¬ first = other := fun equal => differs (equal.symm.trans same)
      simp [entryOf?, passed]
    · simp only [entryOf?, ih]

theorem entryOf?_eq_none_of_lt {name : String} {entries : List (String × FileNode)}
    (before : ∀ entry ∈ entries, name < entry.1) : entryOf? name entries = none := by
  induction entries with
  | nil => rfl
  | cons entry entries ih =>
    obtain ⟨first, old⟩ := entry
    have differs : first ≠ name := (before (first, old) List.mem_cons_self).ne'
    simp only [entryOf?, differs, if_false]
    exact ih fun other member => before other (List.mem_cons_of_mem _ member)

def Ordered (entries : List (String × FileNode)) : Prop :=
  (entries.map (·.1)).Pairwise (· < ·)

theorem Ordered.tail {entry : String × FileNode} {entries : List (String × FileNode)}
    (ordered : Ordered (entry :: entries)) : Ordered entries :=
  (List.pairwise_cons.1 ordered).2

theorem Ordered.head_lt {entry : String × FileNode} {entries : List (String × FileNode)}
    (ordered : Ordered (entry :: entries)) {other : String × FileNode} (member : other ∈ entries) :
    entry.1 < other.1 :=
  (List.pairwise_cons.1 ordered).1 other.1 (List.mem_map_of_mem member)

theorem entryOf?_dropEntry_self {entries : List (String × FileNode)} (ordered : Ordered entries)
    (name : String) : entryOf? name (dropEntry name entries) = none := by
  induction entries with
  | nil => rfl
  | cons entry entries ih =>
    obtain ⟨first, old⟩ := entry
    simp only [dropEntry]
    split
    · next same =>
      subst same
      exact entryOf?_eq_none_of_lt fun other member => ordered.head_lt member
    · next differs =>
      simp only [entryOf?, differs, if_false]
      exact ih ordered.tail

theorem mem_names_putEntry {name other : String} {node : FileNode}
    {entries : List (String × FileNode)} (member : other ∈ (putEntry name node entries).map (·.1)) :
    other = name ∨ other ∈ entries.map (·.1) := by
  induction entries with
  | nil => exact .inl (by simpa [putEntry] using member)
  | cons entry entries ih =>
    obtain ⟨first, old⟩ := entry
    simp only [putEntry] at member
    split at member
    · rcases List.mem_cons.1 member with same | inside
      · exact .inl same
      · exact .inr (List.mem_cons_of_mem _ inside)
    · split at member
      · rcases List.mem_cons.1 member with same | inside
        · exact .inl same
        · exact .inr inside
      · rcases List.mem_cons.1 member with same | inside
        · exact .inr (same ▸ List.mem_cons_self)
        · exact (ih inside).imp id (List.mem_cons_of_mem _)

theorem Ordered.putEntry {entries : List (String × FileNode)} (ordered : Ordered entries)
    (name : String) (node : FileNode) : Ordered (putEntry name node entries) := by
  induction entries with
  | nil => simp [Ordered, FileNode.putEntry]
  | cons entry entries ih =>
    obtain ⟨first, old⟩ := entry
    simp only [FileNode.putEntry]
    split
    · next same => exact same ▸ ordered
    · next differs =>
      split
      · next less =>
        refine List.pairwise_cons.2 ⟨?_, ordered⟩
        intro other member
        rcases List.mem_cons.1 member with same | inside
        · exact same ▸ less
        · obtain ⟨there, isThere, rfl⟩ := List.mem_map.1 inside
          exact lt_trans less (ordered.head_lt isThere)
      · next notLess =>
        have less : first < name := lt_of_le_of_ne (not_lt.1 notLess) differs
        refine List.pairwise_cons.2 ⟨?_, ih ordered.tail⟩
        intro other member
        rcases mem_names_putEntry member with same | inside
        · exact same ▸ less
        · obtain ⟨there, isThere, rfl⟩ := List.mem_map.1 inside
          exact ordered.head_lt isThere

theorem dropEntry_sublist (name : String) (entries : List (String × FileNode)) :
    (dropEntry name entries).Sublist entries := by
  induction entries with
  | nil => exact .slnil
  | cons entry entries ih =>
    simp only [dropEntry]
    split
    · exact List.sublist_cons_self _ _
    · exact ih.cons_cons _

theorem Ordered.dropEntry {entries : List (String × FileNode)} (ordered : Ordered entries)
    (name : String) : Ordered (dropEntry name entries) :=
  List.Pairwise.sublist ((dropEntry_sublist name entries).map _) ordered

theorem mem_of_mem_putEntry {name : String} {node : FileNode} {entries : List (String × FileNode)}
    {entry : String × FileNode} (member : entry ∈ FileNode.putEntry name node entries) :
    entry = (name, node) ∨ entry ∈ entries := by
  induction entries with
  | nil => exact .inl (List.mem_singleton.1 member)
  | cons first entries ih =>
    simp only [FileNode.putEntry] at member
    split at member
    · exact (List.mem_cons.1 member).imp id (List.mem_cons_of_mem _)
    · split at member
      · exact List.mem_cons.1 member
      · rcases List.mem_cons.1 member with same | inside
        · exact .inr (same ▸ List.mem_cons_self)
        · exact (ih inside).imp id (List.mem_cons_of_mem _)

theorem mem_of_entryOf? {name : String} {entries : List (String × FileNode)} {node : FileNode}
    (found : entryOf? name entries = some node) : (name, node) ∈ entries := by
  induction entries with
  | nil => cases found
  | cons entry entries ih =>
    obtain ⟨first, old⟩ := entry
    simp only [entryOf?] at found
    split at found
    · next same =>
      cases found
      exact same ▸ List.mem_cons_self
    · exact List.mem_cons_of_mem _ (ih found)

/-- A name that is one segment of a path and no dots. -/
structure Plain (name : String) : Prop where
  nonempty : name.toList ≠ []
  whole : '/' ∉ name.toList
  notCurrent : name.toList ≠ ['.']
  notParent : name.toList ≠ ['.', '.']

/-- In every directory at or below a node the entries have plain names, in order and each once. -/
inductive Tidy : FileNode → Prop
  | file (content : ByteArray) : Tidy (file content)
  | directory {entries : List (String × FileNode)} (ordered : Ordered entries)
    (plain : ∀ entry ∈ entries, Plain entry.1) (inner : ∀ entry ∈ entries, Tidy entry.2) :
    Tidy (directory entries)

theorem Tidy.empty : Tidy emptyDirectory :=
  .directory .nil nofun nofun

instance (entries : List (String × FileNode)) : Decidable (Ordered entries) :=
  inferInstanceAs (Decidable (List.Pairwise _ _))

instance (name : String) : Decidable (Plain name) :=
  decidable_of_iff (name.toList ≠ [] ∧ '/' ∉ name.toList ∧ name.toList ≠ ['.'] ∧ name.toList ≠ ['.', '.'])
    ⟨fun ⟨nonempty, whole, notCurrent, notParent⟩ => ⟨nonempty, whole, notCurrent, notParent⟩,
      fun plain => ⟨plain.nonempty, plain.whole, plain.notCurrent, plain.notParent⟩⟩

mutual

def isTidy : FileNode → Bool
  | file _ => true
  | directory entries => decide (Ordered entries) && areTidy entries

def areTidy : List (String × FileNode) → Bool
  | [] => true
  | (name, node) :: entries => decide (Plain name) && isTidy node && areTidy entries

end

mutual

theorem tidy_of_isTidy : ∀ {node : FileNode}, node.isTidy = true → node.Tidy
  | file content, _ => .file content
  | directory entries, checked => by
    rw [isTidy, Bool.and_eq_true, decide_eq_true_iff] at checked
    have inner := tidy_of_areTidy checked.2
    exact .directory checked.1 (fun entry member => (inner entry member).1)
      fun entry member => (inner entry member).2

theorem tidy_of_areTidy : ∀ {entries : List (String × FileNode)}, areTidy entries = true →
    ∀ entry ∈ entries, Plain entry.1 ∧ Tidy entry.2
  | [], _ => nofun
  | (name, node) :: entries, checked => by
    rw [areTidy, Bool.and_eq_true, Bool.and_eq_true, decide_eq_true_iff] at checked
    have isTidyNode := tidy_of_isTidy checked.1.2
    have rest := tidy_of_areTidy checked.2
    rintro entry (_ | ⟨_, member⟩)
    · exact ⟨checked.1.1, isTidyNode⟩
    · exact rest entry member

end

/-! What stands under names -/

theorem get?_append {node middle : FileNode} {lead : List String} (there : node.get? lead = some middle)
    (rest : List String) : node.get? (lead ++ rest) = middle.get? rest := by
  induction lead generalizing node with
  | nil =>
    cases there
    rfl
  | cons name names ih =>
    cases node with
    | file content => cases there
    | directory entries =>
      obtain ⟨child, found, below⟩ := Option.bind_eq_some_iff.1 there
      show (entryOf? name entries).bind (get? (names ++ rest)) = middle.get? rest
      rw [found]
      exact ih below

def sight (node : FileNode) (names : List String) : Option (Option ByteArray) :=
  (node.get? names).map fun
    | file content => some content
    | directory _ => none

theorem sight_file_cons (content : ByteArray) (name : String) (names : List String) :
    (file content).sight (name :: names) = none := rfl

theorem sight_directory_cons (entries : List (String × FileNode)) (name : String)
    (names : List String) :
    (directory entries).sight (name :: names) =
      (entryOf? name entries).bind fun node => node.sight names := by
  simp only [sight, get?]
  cases entryOf? name entries <;> rfl

theorem sight_emptyDirectory_cons (name : String) (names : List String) :
    emptyDirectory.sight (name :: names) = none := rfl

/-- What leads to something is a directory. -/
theorem sight_of_append {node : FileNode} {lead rest : List String} (nonempty : rest ≠ [])
    (there : node.sight (lead ++ rest) ≠ none) : node.sight lead = some none := by
  induction lead generalizing node with
  | nil =>
    obtain ⟨name, names, rfl⟩ := List.exists_cons_of_ne_nil nonempty
    cases node with
    | file content => exact absurd rfl there
    | directory entries => rfl
  | cons name names ih =>
    cases node with
    | file content => exact absurd rfl there
    | directory entries =>
      rw [List.cons_append, sight_directory_cons] at there
      rw [sight_directory_cons]
      cases found : entryOf? name entries with
      | none => exact absurd (by rw [found]; rfl) there
      | some child =>
        rw [found] at there
        exact ih there

theorem sight_append_of_not_directory {node : FileNode} {lead rest : List String}
    (nonempty : rest ≠ []) (other : node.sight lead ≠ some none) : node.sight (lead ++ rest) = none := by
  cases found : node.sight (lead ++ rest) with
  | none => rfl
  | some seen => exact absurd (sight_of_append nonempty (by simp [found])) other

def Reaches (node : FileNode) (names : List String) : Prop :=
  names = [] ∨ node.sight names.dropLast = some none

theorem Reaches.tail {entries : List (String × FileNode)} {name next : String}
    {names : List String} (reaches : (directory entries).Reaches (name :: next :: names)) :
    ∃ child, entryOf? name entries = some child ∧ child.Reaches (next :: names) := by
  rcases reaches with empty | lead
  · cases empty
  · rw [List.dropLast_cons_of_ne_nil (by simp), sight_directory_cons] at lead
    cases found : entryOf? name entries with
    | none => rw [found] at lead; cases lead
    | some child => exact ⟨child, rfl, .inr (by rw [found] at lead; exact lead)⟩

theorem Reaches.isDirectory {node : FileNode} {name : String} {names : List String}
    (reaches : node.Reaches (name :: names)) : ∃ entries, node = directory entries := by
  cases node with
  | directory entries => exact ⟨entries, rfl⟩
  | file content =>
    rcases reaches with empty | lead
    · cases empty
    · cases names <;> cases lead

/-- Outside a place nothing changes where the last directory in front of it changes under one name alone. -/
theorem sight_changed {change : List String → FileNode → FileNode}
    (last : ∀ (name : String) (entries : List (String × FileNode)), ∃ changed,
      change [name] (directory entries) = directory changed ∧
        ∀ {other : String}, other ≠ name → entryOf? other changed = entryOf? other entries)
    (below : ∀ {name next : String} {rest : List String} {entries : List (String × FileNode)} {child : FileNode},
      entryOf? name entries = some child → change (name :: next :: rest) (directory entries) =
        directory (putEntry name (change (next :: rest) child) entries))
    {node : FileNode} {names : List String} (reaches : node.Reaches names) {other : List String}
    (outside : ¬ names <+: other) : (change names node).sight other = node.sight other := by
  induction names generalizing node other with
  | nil => exact absurd (List.nil_prefix) outside
  | cons name names ih =>
    obtain ⟨entries, rfl⟩ := reaches.isDirectory
    cases names with
    | nil =>
      obtain ⟨changed, became, same⟩ := last name entries
      rw [became]
      cases other with
      | nil => rfl
      | cons first others =>
        have differs : first ≠ name := by
          rintro rfl
          exact outside (List.prefix_append [first] others)
        rw [sight_directory_cons, sight_directory_cons, same differs]
    | cons next rest =>
      obtain ⟨child, found, reachesChild⟩ := reaches.tail
      rw [below found]
      cases other with
      | nil => rfl
      | cons first others =>
        rw [sight_directory_cons, sight_directory_cons]
        by_cases same : first = name
        · subst same
          rw [entryOf?_putEntry_self, found]
          exact ih reachesChild fun covered => outside (by simpa using covered)
        · rw [entryOf?_putEntry_of_ne same]

theorem sight_put (new : FileNode) {node : FileNode} {names : List String}
    (reaches : node.Reaches names) {other : List String} (outside : ¬ names <+: other) :
    (put new names node).sight other = node.sight other :=
  sight_changed (fun _ entries => ⟨_, rfl, fun differs => entryOf?_putEntry_of_ne differs new entries⟩)
    (fun found => by simp only [put, found]) reaches outside

theorem sight_erase {node : FileNode} {names : List String} (reaches : node.Reaches names)
    {other : List String} (outside : ¬ names <+: other) :
    (erase names node).sight other = node.sight other :=
  sight_changed (fun _ entries => ⟨_, rfl, fun differs => entryOf?_dropEntry_of_ne differs entries⟩)
    (fun found => by simp only [erase, found]) reaches outside

theorem sight_put_append (new : FileNode) {node : FileNode} {names : List String}
    (reaches : node.Reaches names) (rest : List String) :
    (put new names node).sight (names ++ rest) = new.sight rest := by
  induction names generalizing node with
  | nil => rfl
  | cons name names ih =>
    obtain ⟨entries, rfl⟩ := reaches.isDirectory
    cases names with
    | nil =>
      rw [put, List.cons_append, List.nil_append, sight_directory_cons, entryOf?_putEntry_self]
      rfl
    | cons next rest =>
      obtain ⟨child, found, reachesChild⟩ := reaches.tail
      simp only [put, found]
      rw [List.cons_append, sight_directory_cons, entryOf?_putEntry_self]
      exact ih reachesChild

theorem Tidy.child {entries : List (String × FileNode)} (tidy : (FileNode.directory entries).Tidy)
    {name : String} {child : FileNode} (found : entryOf? name entries = some child) : child.Tidy := by
  cases tidy with
  | directory ordered plain inner => exact inner (name, child) (mem_of_entryOf? found)

theorem Tidy.plain {entries : List (String × FileNode)} (tidy : (FileNode.directory entries).Tidy)
    {name : String} {child : FileNode} (found : entryOf? name entries = some child) : Plain name := by
  cases tidy with
  | directory ordered plain inner => exact plain (name, child) (mem_of_entryOf? found)

theorem plain_of_get? {node found : FileNode} (tidy : node.Tidy) {names : List String}
    (there : node.get? names = some found) : ∀ name ∈ names, Plain name := by
  induction names generalizing node with
  | nil => nofun
  | cons first names ih =>
    cases node with
    | file content => cases there
    | directory entries =>
      obtain ⟨child, entry, below⟩ := Option.bind_eq_some_iff.1 there
      rintro name (_ | ⟨_, member⟩)
      · exact tidy.plain entry
      · exact ih (tidy.child entry) below name member

theorem tidy_of_get? {node found : FileNode} (tidy : node.Tidy) {names : List String}
    (there : node.get? names = some found) : found.Tidy := by
  induction names generalizing node with
  | nil =>
    cases there
    exact tidy
  | cons first names ih =>
    cases node with
    | file content => cases there
    | directory entries =>
      obtain ⟨child, entry, below⟩ := Option.bind_eq_some_iff.1 there
      exact ih (tidy.child entry) below

theorem Tidy.putEntry {entries : List (String × FileNode)} (tidy : (FileNode.directory entries).Tidy)
    {name : String} (plainName : Plain name) {child : FileNode} (tidyChild : child.Tidy) :
    (FileNode.directory (FileNode.putEntry name child entries)).Tidy := by
  cases tidy with
  | directory ordered plain inner =>
    refine .directory (ordered.putEntry name child) ?_ ?_
    · intro entry member
      rcases mem_of_mem_putEntry member with rfl | old
      · exact plainName
      · exact plain entry old
    · intro entry member
      rcases mem_of_mem_putEntry member with rfl | old
      · exact tidyChild
      · exact inner entry old

def EndsPlain (names : List String) : Prop :=
  ∀ name, names.getLast? = some name → Plain name

theorem endsPlain_append {name : String} (plain : Plain name) (lead : List String) :
    EndsPlain (lead ++ [name]) := by
  intro last isLast
  rw [List.getLast?_concat, Option.some.injEq] at isLast
  exact isLast ▸ plain

theorem Tidy.put {new node : FileNode} (tidyNew : new.Tidy) (tidy : node.Tidy)
    {names : List String} (endsPlain : EndsPlain names) : (put new names node).Tidy := by
  induction names generalizing node with
  | nil => exact tidyNew
  | cons name names ih =>
    cases node with
    | file content => cases names <;> exact tidy
    | directory entries =>
      cases names with
      | nil => exact tidy.putEntry (endsPlain name rfl) tidyNew
      | cons next rest =>
        simp only [FileNode.put]
        split
        · next child found =>
          exact tidy.putEntry (tidy.plain found)
            (ih (tidy.child found) fun last isLast => endsPlain last (by simpa using isLast))
        · exact tidy

theorem Tidy.erase {node : FileNode} (tidy : node.Tidy) (names : List String) :
    (erase names node).Tidy := by
  induction names generalizing node with
  | nil => exact .empty
  | cons name names ih =>
    cases node with
    | file content => cases names <;> exact tidy
    | directory entries =>
      cases names with
      | nil =>
        cases tidy with
        | directory ordered plain inner =>
          exact .directory (ordered.dropEntry name)
            (fun entry member => plain entry ((dropEntry_sublist name entries).subset member))
            fun entry member => inner entry ((dropEntry_sublist name entries).subset member)
      | cons next rest =>
        simp only [FileNode.erase]
        split
        · next child found => exact tidy.putEntry (tidy.plain found) (ih (tidy.child found))
        · exact tidy

/-- In a tidy tree nothing is left where something was taken away. -/
theorem sight_erase_append {node : FileNode} (tidy : node.Tidy) {names : List String}
    (reaches : node.Reaches names) (nonempty : names ≠ []) (rest : List String) :
    (erase names node).sight (names ++ rest) = none := by
  induction names generalizing node with
  | nil => exact absurd rfl nonempty
  | cons name names ih =>
    obtain ⟨entries, rfl⟩ := reaches.isDirectory
    cases names with
    | nil =>
      cases tidy with
      | directory ordered plain inner =>
        rw [erase, List.cons_append, sight_directory_cons, entryOf?_dropEntry_self ordered]
        rfl
    | cons next rest =>
      obtain ⟨child, found, reachesChild⟩ := reaches.tail
      simp only [erase, found]
      rw [List.cons_append, sight_directory_cons, entryOf?_putEntry_self]
      exact ih (tidy.child found) reachesChild (by simp)

end ContractBuild.FileNode
