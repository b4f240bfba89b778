import ContractBuild.Proofs.Binding.StemNames
import ContractBuild.Binding.TypeScript

/-!
Names of parameters. A parameter is called what is left of its name when it is cleaned, or after its position
when nothing is left. In TypeScript nothing tells the names of one list apart, so two of them may come out alike,
and which ones do is told by the cleaned names and their positions.
-/
namespace ContractBuild
open Text

namespace Name
open Numeral (isDigit)

/-! From a cleaned name to an identifier -/

inductive Settles (fallback : List Char) : List Char → List Char → Prop
  | blank {cleaned : List Char} (blank : ∀ c ∈ cleaned, c = '_') : Settles fallback cleaned fallback
  | number {c : Char} {rest : List Char} (digit : isDigit c = true) : Settles fallback (c :: rest) ('_' :: c :: rest)
  | plain {cleaned : List Char} (shown : ∃ c ∈ cleaned, c ≠ '_')
    (begins : ∀ c ∈ cleaned.head?, isDigit c = false) : Settles fallback cleaned cleaned

theorem settled_spec (fallback cleaned : List Char) : Settles fallback cleaned (settled fallback cleaned) := by
  unfold settled
  split
  · next blank => exact .blank (by simpa using blank)
  · next shown =>
    split
    · next digit =>
      cases cleaned with
      | nil => cases digit
      | cons c rest => exact .number digit
    · next begins =>
      refine .plain (by simpa using shown) fun c first => ?_
      rw [Option.mem_def.1 first, Option.any_some] at begins
      exact eq_false_of_ne_true begins

theorem Settles.eq {fallback cleaned name : List Char} (settles : Settles fallback cleaned name) :
    settled fallback cleaned = name := by
  unfold settled
  cases settles with
  | blank blank => exact if_pos (by simpa using blank)
  | @number c rest digit =>
    have shown : c ≠ '_' := by
      rintro rfl
      cases digit
    simp [shown, digit]
  | plain shown begins =>
    rw [if_neg (by simpa using shown), if_neg]
    cases cleaned with
    | nil => exact Bool.false_ne_true
    | cons c rest => exact Bool.eq_false_iff.1 (begins c rfl)

def positional (position : Nat) : String :=
  "arg" ++ Numeral.render position

theorem positional_inj {i j : Nat} : positional i = positional j ↔ i = j :=
  (String.append_right_inj "arg").trans render_inj

theorem chars_positional (position : Nat) : ∀ c ∈ (positional position).toList, isIdentifierChar c = true := by
  rw [positional, String.toList_append]
  exact List.forall_mem_append.2 ⟨List.all_eq_true.1 (by decide), fun c member => (RustModule.chars_render member).2.2⟩

theorem head?_positional (position : Nat) : (positional position).toList.head? = some 'a' := by
  rw [positional, String.toList_append]
  rfl

def isWord (text : String) : Bool :=
  text.toList.head?.any (fun c => !isDigit c && c ≠ '_') && text.toList.getLast?.all (!isDigit ·)

theorem not_isWord_append_render (name : String) (n : Nat) : isWord (name ++ Numeral.render n) = false := by
  have filled : (Numeral.render n).toList ≠ [] := by
    rw [Numeral.render, String.toList_ofList]
    exact Numeral.digits_ne_nil n
  have last : (name ++ Numeral.render n).toList.getLast? = some ((Numeral.render n).toList.getLast filled) := by
    rw [String.toList_append, List.getLast?_append_of_ne_nil _ filled, List.getLast?_eq_some_getLast filled]
  rw [isWord, last, Option.all_some, (RustModule.chars_render (List.getLast_mem filled)).1]
  exact Bool.and_false _

/-- A word comes only of the name that is spelled so. -/
theorem identifier_positional_iff {word : String} (proper : isWord word = true) (position : Nat) (name : String) :
    identifier (positional position) name = word ↔ name.toList.map clean = word.toList := by
  have apart : positional position ≠ word := by
    rintro rfl
    exact Bool.false_ne_true ((not_isWord_append_render "arg" position).symm.trans proper)
  rw [isWord, Bool.and_eq_true, Option.any_eq_true] at proper
  obtain ⟨⟨first, begins, shows⟩, -⟩ := proper
  have shown : isDigit first = false ∧ first ≠ '_' := by simpa using shows
  rw [← String.toList_inj, identifier_eq]
  constructor
  · intro same
    have settles := settled_spec (positional position).toList (name.toList.map clean)
    rw [same] at settles
    generalize name.toList.map clean = cleaned at settles
    generalize text : word.toList = result at settles
    cases settles with
    | blank _ => exact absurd (String.toList_inj.1 text).symm apart
    | number _ =>
      rw [text] at begins
      exact absurd (Option.some.inj begins).symm shown.2
    | plain _ _ => rfl
  · intro same
    rw [same]
    refine (Settles.plain ⟨first, List.mem_of_head? begins, shown.2⟩ fun c head => ?_).eq
    obtain rfl : first = c := Option.some.inj (begins.symm.trans head)
    exact shown.1

end Name

namespace TypeScript
open Name
open Numeral (isDigit)

inductive Clash : List Char → Nat → List Char → Prop
  | alike {name : List Char} {position : Nat} (shown : ∃ c ∈ name, c ≠ '_') : Clash name position name
  | number {c : Char} {rest : List Char} {position : Nat} (digit : isDigit c = true) :
    Clash (c :: rest) position ('_' :: c :: rest)
  | blank {name : List Char} {position : Nat} (blank : ∀ c ∈ name, c = '_') :
    Clash name position (positional position).toList
  | reserved {word : String} {position : Nat} (taken : word ∈ reserved) :
    Clash word.toList position (word ++ "_").toList

theorem clash_of_settles {one other name : List Char} {i j : Nat} (apart : i ≠ j)
    (first : Settles (positional i).toList one name) (second : Settles (positional j).toList other name) :
    Clash one i other ∨ Clash other j one := by
  have begins := head?_positional i
  have spare := head?_positional j
  cases first with
  | blank blank =>
    generalize same : (positional i).toList = name at second
    cases second with
    | blank _ => exact absurd (positional_inj.1 (String.toList_inj.1 same)) apart
    | number _ => simp [same] at begins
    | plain _ _ => exact .inl (same ▸ .blank blank)
  | @number c rest digit =>
    generalize same : '_' :: c :: rest = name at second
    cases second with
    | blank _ => simp [← same] at spare
    | number _ =>
      obtain ⟨rfl, rfl⟩ := List.cons.inj (List.cons.inj same).2
      exact .inl (.alike ⟨c, List.mem_cons_self, by rintro rfl; cases digit⟩)
    | plain _ _ => exact .inl (same ▸ .number digit)
  | plain shown noDigit =>
    cases second with
    | blank blank => exact .inr (.blank blank)
    | number digit => exact .inr (.number digit)
    | plain _ _ => exact .inl (.alike shown)

theorem isWord_reserved : ∀ word ∈ reserved, isWord word = true ∧ isWord (word ++ "_") = true ∧
    word ++ "_" ∉ reserved := by
  decide

def candidate (name : String) (position : Nat) : String :=
  identifier (positional position) name

theorem paramName_eq (name : String) (position : Nat) : paramName name position =
    if candidate name position ∈ reserved then candidate name position ++ "_" else candidate name position := rfl

theorem paramName_cases {name result : String} {position : Nat} (same : paramName name position = result) :
    candidate name position = result ∧ result ∉ reserved ∨
      ∃ word ∈ reserved, candidate name position = word ∧ word ++ "_" = result := by
  rw [paramName_eq] at same
  split at same
  · next taken => exact .inr ⟨_, taken, rfl, same⟩
  · next free => exact .inl ⟨same, same ▸ free⟩

theorem paramName_not_reserved (name : String) (position : Nat) : paramName name position ∉ reserved := by
  obtain ⟨-, free⟩ | ⟨word, taken, -, same⟩ := paramName_cases (rfl : paramName name position = _)
  · exact free
  · exact same ▸ (isWord_reserved word taken).2.2

theorem Clash.paramName_eq {one other : String} {i j : Nat}
    (clash : Clash (one.toList.map clean) i (other.toList.map clean)) : paramName one i = paramName other j := by
  have ofSettled : settled (positional i).toList (one.toList.map clean) =
      settled (positional j).toList (other.toList.map clean) → paramName one i = paramName other j := by
    intro same
    have candidates : candidate one i = candidate other j := by
      rw [← String.toList_inj, candidate, candidate, identifier_eq, identifier_eq, same]
    rw [TypeScript.paramName_eq, TypeScript.paramName_eq, candidates]
  generalize first : one.toList.map clean = before, second : other.toList.map clean = behind at clash ofSettled
  cases clash with
  | alike shown =>
    apply ofSettled
    have visible : ¬ (before.all (· = '_')) = true := by simpa using shown
    rw [settled, settled, if_neg visible, if_neg visible]
  | @number c rest _ digit =>
    apply ofSettled
    have shown : c ≠ '_' := by
      rintro rfl
      cases digit
    have plain : Settles (positional j).toList ('_' :: c :: rest) ('_' :: c :: rest) :=
      .plain ⟨c, List.mem_cons_of_mem _ List.mem_cons_self, shown⟩ fun d head => Option.some.inj head ▸ rfl
    rw [(Settles.number digit).eq, plain.eq]
  | blank blank =>
    apply ofSettled
    have begins := head?_positional i
    have plain : Settles (positional j).toList (positional i).toList (positional i).toList := by
      refine .plain ⟨'a', List.mem_of_head? begins, by decide⟩ fun c head => ?_
      obtain rfl : 'a' = c := Option.some.inj (begins.symm.trans head)
      rfl
    rw [(Settles.blank blank).eq, plain.eq]
  | @reserved word _ taken =>
    obtain ⟨proper, longer, free⟩ := isWord_reserved word taken
    have isTaken : candidate one i = word := (identifier_positional_iff proper i one).2 first
    have isFree : candidate other j = word ++ "_" := (identifier_positional_iff longer j other).2 second
    rw [TypeScript.paramName_eq, TypeScript.paramName_eq, isTaken, isFree, if_pos taken, if_neg free]

theorem clash_of_candidate {one other : String} {i j : Nat} (apart : i ≠ j)
    (same : candidate one i = candidate other j) :
    Clash (one.toList.map clean) i (other.toList.map clean) ∨
      Clash (other.toList.map clean) j (one.toList.map clean) := by
  rw [← String.toList_inj, candidate, candidate, identifier_eq, identifier_eq] at same
  exact clash_of_settles apart (settled_spec _ _) (same ▸ settled_spec _ _)

theorem clash_of_reserved {one other : String} {i j : Nat} (taken : candidate one i ∈ reserved)
    (same : candidate one i ++ "_" = candidate other j) :
    Clash (one.toList.map clean) i (other.toList.map clean) := by
  obtain ⟨proper, longer, -⟩ := isWord_reserved _ taken
  rw [(identifier_positional_iff proper i one).1 rfl, (identifier_positional_iff longer j other).1 same.symm]
  exact .reserved taken

/-- At two positions, names come out alike exactly if they clash one way or the other. -/
theorem paramName_eq_iff {one other : String} {i j : Nat} (apart : i ≠ j) :
    paramName one i = paramName other j ↔
      Clash (one.toList.map clean) i (other.toList.map clean) ∨
        Clash (other.toList.map clean) j (one.toList.map clean) := by
  constructor
  · intro same
    rw [paramName_eq, paramName_eq] at same
    split at same <;> split at same
    · exact clash_of_candidate apart ((String.append_left_inj "_").1 same)
    · next taken _ => exact .inl (clash_of_reserved taken same)
    · next taken => exact .inr (clash_of_reserved taken same.symm)
    · exact clash_of_candidate apart same
  · rintro (clash | clash)
    · exact clash.paramName_eq
    · exact clash.paramName_eq.symm

structure IsLegal (name : String) : Prop where
  nonempty : name ≠ ""
  chars : ∀ c ∈ name.toList, isIdentifierChar c = true
  begins : ∀ c ∈ name.toList.head?, isDigit c = false
  notReserved : name ∉ reserved

theorem chars_candidate (name : String) (position : Nat) :
    ∀ c ∈ (candidate name position).toList, isIdentifierChar c = true := by
  rw [candidate, identifier_eq]
  exact settled_chars (chars_positional position) map_clean_chars

theorem begins_candidate (name : String) (position : Nat) :
    ∃ c, (candidate name position).toList.head? = some c ∧ isDigit c = false := by
  rw [candidate, identifier_eq]
  have settles := settled_spec (positional position).toList (name.toList.map clean)
  generalize name.toList.map clean = cleaned at settles ⊢
  generalize settled (positional position).toList cleaned = result at settles ⊢
  cases settles with
  | blank _ => exact ⟨'a', head?_positional position, rfl⟩
  | number _ => exact ⟨'_', rfl, rfl⟩
  | plain shown begins =>
    obtain ⟨c, member, -⟩ := shown
    obtain ⟨first, rest, rfl⟩ := List.exists_cons_of_ne_nil (List.ne_nil_of_mem member)
    exact ⟨first, rfl, begins first rfl⟩

theorem isLegal_paramName (name : String) (position : Nat) : IsLegal (paramName name position) := by
  obtain ⟨c, first, noDigit⟩ := begins_candidate name position
  obtain ⟨rest, text⟩ := List.head?_eq_some_iff.1 first
  have ending : ∃ more, paramName name position = candidate name position ++ more ∧
      ∀ c ∈ more.toList, isIdentifierChar c = true := by
    rw [paramName_eq]
    split
    · exact ⟨"_", rfl, List.all_eq_true.1 (by decide)⟩
    · exact ⟨"", String.append_empty.symm, nofun⟩
  obtain ⟨more, same, fine⟩ := ending
  have shape : (paramName name position).toList = c :: rest ++ more.toList := by
    rw [same, String.toList_append, text]
  refine ⟨fun none => ?_, ?_, ?_, paramName_not_reserved name position⟩
  · rw [none] at shape
    cases shape
  · rw [same, String.toList_append]
    exact List.forall_mem_append.2 ⟨chars_candidate name position, fine⟩
  · intro d head
    rw [shape] at head
    obtain rfl : c = d := Option.some.inj head
    exact noDigit

def strictWords : List String := [
  "arguments", "await", "eval", "implements", "interface", "let", "package", "private", "protected", "public",
  "static", "yield"]

/-- These words are not seen to. -/
theorem paramName_eq_strict {word : String} (isStrict : word ∈ strictWords) {name : String} {position : Nat} :
    paramName name position = word ↔ name.toList.map clean = word.toList := by
  have proper : ∀ word ∈ strictWords, isWord word = true ∧ word ∉ reserved ∧ word ∉ reserved.map (· ++ "_") := by
    decide
  obtain ⟨isProper, free, plain⟩ := proper word isStrict
  rw [← identifier_positional_iff isProper position]
  constructor
  · intro same
    obtain ⟨found, -⟩ | ⟨other, taken, -, longer⟩ := paramName_cases same
    · exact found
    · exact absurd (List.mem_map.2 ⟨other, taken, longer⟩) plain
  · intro found
    rw [paramName_eq, candidate, found, if_neg free]

/-! Parameters side by side -/

def names (placed : List (TypedParam × Nat)) : List String :=
  placed.map fun (param, position) => paramName param.name position

def declared (mark : String) (text : AbiType → String) (placed : List (TypedParam × Nat)) : List String :=
  List.zipWith (fun name param => name ++ mark ++ text param.1.type) (names placed) placed

def Collide (one other : TypedParam × Nat) : Prop :=
  Clash (one.1.name.toList.map clean) one.2 (other.1.name.toList.map clean) ∨
    Clash (other.1.name.toList.map clean) other.2 (one.1.name.toList.map clean)

/-- What the names of parameters come to that stand side by side. -/
structure ParamNames (placed : List (TypedParam × Nat)) : Prop where
  legal : ∀ name ∈ names placed, IsLegal name
  strict : ∀ word ∈ strictWords, word ∈ names placed ↔
    ∃ param ∈ placed, param.1.name.toList.map clean = word.toList
  apart : (names placed).Nodup ↔ placed.Pairwise fun one other => ¬ Collide one other

theorem paramNames_of_nodup {placed : List (TypedParam × Nat)} (distinct : (placed.map Prod.snd).Nodup) :
    ParamNames placed := by
  refine ⟨fun name member => ?_, fun word isStrict => ?_, ?_⟩
  · obtain ⟨⟨param, position⟩, -, rfl⟩ := List.mem_map.1 member
    exact isLegal_paramName param.name position
  · simp only [names, List.mem_map, paramName_eq_strict isStrict]
  · have positions := List.pairwise_map.1 distinct
    rw [List.Nodup, names, List.pairwise_map]
    constructor
    · intro differ
      exact (differ.and positions).imp fun ⟨differs, apart⟩ collide => differs ((paramName_eq_iff apart).2 collide)
    · intro free
      exact (free.and positions).imp fun ⟨free, apart⟩ same => free ((paramName_eq_iff apart).1 same)

theorem paramNames_zipIdx (params : List TypedParam) : ParamNames params.zipIdx := by
  apply paramNames_of_nodup
  rw [List.zipIdx_map_snd]
  exact List.nodup_range'

theorem paramNames_indexed (params : List TypedParam) : ParamNames (params.zipIdx.filter (·.1.indexed)) := by
  apply paramNames_of_nodup
  refine (List.filter_sublist.map Prod.snd).nodup ?_
  rw [List.zipIdx_map_snd]
  exact List.nodup_range'

theorem declared_eq (mark : String) (text : AbiType → String) (placed : List (TypedParam × Nat)) :
    declared mark text placed =
      placed.map fun (param, position) => paramName param.name position ++ mark ++ text param.type := by
  rw [declared, names, List.zipWith_map_left, List.zipWith_self]

theorem inputFields_eq (position : Nat) (members : List TypedParam) :
    inputFields position members = declared ": " inputType (members.zipIdx position) := by
  rw [declared_eq]
  induction members generalizing position with
  | nil => rfl
  | cons member members ih => rw [inputFields, ih, List.zipIdx_cons, List.map_cons]

theorem outputFields_eq (position : Nat) (members : List TypedParam) :
    outputFields position members = declared ": " outputType (members.zipIdx position) := by
  rw [declared_eq]
  induction members generalizing position with
  | nil => rfl
  | cons member members ih => rw [outputFields, ih, List.zipIdx_cons, List.map_cons]

theorem outputTypes_eq (members : List TypedParam) :
    outputTypes members = members.map fun member => outputType member.type := by
  induction members with
  | nil => rfl
  | cons member members ih => rw [outputTypes, ih, List.map_cons]

theorem indexedFields_eq (placed : List (TypedParam × Nat)) :
    (placed.filterMap fun (param, position) =>
      if param.indexed then some (paramName param.name position ++ "?: " ++ inputType param.type ++ " | null")
      else none) = declared "?: " (inputType · ++ " | null") (placed.filter (·.1.indexed)) := by
  rw [declared_eq]
  induction placed with
  | nil => rfl
  | cons entry placed ih =>
    obtain ⟨param, position⟩ := entry
    rw [List.filterMap_cons, ih]
    by_cases indexed : param.indexed = true <;> simp [indexed, String.append_assoc]

/-- The parameters of every function, the indexed ones of every event and the members of every tuple are written
under names that can be declared; they are pairwise distinct exactly if no two of them collide. -/
theorem parameters_named (function : FunctionEntry) (event : EventEntry) (members : List TypedParam) :
    ((functionView function).params = join ", " (declared ": " inputType function.inputs.zipIdx ++
        ["overrides?: " ++ overrides function.mutability]) ∧ ParamNames function.inputs.zipIdx) ∧
      ((eventView event).params = join ", " (declared "?: " (inputType · ++ " | null")
        (event.inputs.zipIdx.filter (·.1.indexed))) ∧ ParamNames (event.inputs.zipIdx.filter (·.1.indexed))) ∧
      inputType (.tuple members) = record (declared ": " inputType members.zipIdx) ∧
      outputType (.tuple members) = "[" ++ join ", " (members.map fun member => outputType member.type) ++ "] & " ++
        record (declared ": " outputType members.zipIdx) ∧ ParamNames members.zipIdx := by
  refine ⟨⟨?_, paramNames_zipIdx _⟩, ⟨?_, paramNames_indexed _⟩, ?_, ?_, paramNames_zipIdx _⟩
  · rw [functionView, inputFields_eq]
  · rw [eventView, indexedFields_eq]
  · rw [inputType, inputFields_eq]
  · rw [outputType, outputTypes_eq, outputFields_eq]

example : ¬ (names [(⟨"a b", .bool, false⟩, 0), (⟨"a_b", .bool, false⟩, 1)]).Nodup := by decide

end TypeScript
end ContractBuild
