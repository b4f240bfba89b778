import ContractBuild.Proofs.Binding.ParameterNames

/-!
Fields of the structs for calls and events. The names of one struct are made distinct before words of the language
are seen to, so the few words that get an underscore instead of a raw mark can meet a name that had it already.
-/
namespace ContractBuild
open Text

namespace Name
open Numeral (isDigit)

/-- Numbers are put behind names only, so a word is given away exactly if somebody wishes it. -/
theorem mem_freshAll_iff {word : String} (proper : isWord word = true) {seen names : List String} :
    word ∈ freshAll seen names ↔ word ∈ names ∧ word ∉ seen := by
  induction names generalizing seen with
  | nil => simp [freshAll]
  | cons name names ih =>
    obtain ⟨free, origin⟩ := fresh_spec seen name
    have chosen : word = fresh seen name ↔ word = name ∧ word ∉ seen := by
      constructor
      · rintro rfl
        refine ⟨origin.resolve_right ?_, free⟩
        rintro ⟨n, same⟩
        rw [same, not_isWord_append_render] at proper
        cases proper
      · rintro ⟨rfl, unseen⟩
        exact (if_neg unseen).symm
    rw [freshAll, List.mem_cons, ih, List.mem_cons, List.mem_cons, chosen]
    tauto

end Name

namespace RustModule
open Name
open Numeral (isDigit)

def pathWords : List String := ["crate", "self", "super"]

def fieldWish (param : TypedParam) (position : Nat) : String :=
  identifier (positional position) (snakeCase param.name)

def fieldWishes (params : List TypedParam) : List String :=
  params.zipIdx.map fun (param, position) => fieldWish param position

theorem fieldNames_eq (params : List TypedParam) :
    fieldNames params = (freshAll [] (fieldWishes params)).map identifierText := rfl

structure IsField (name : String) : Prop where
  chars : ∀ c ∈ name.toList, isIdentifierChar c = true
  begins : ∃ c rest, name.toList = c :: rest ∧ isDigit c = false
  shown : ∃ c ∈ name.toList, c ≠ '_'
  small : ∀ c ∈ name.toList, isUppercase c = false

theorem IsField.append {name suffix : String} (field : IsField name)
    (fine : ∀ c ∈ suffix.toList, isIdentifierChar c = true ∧ isUppercase c = false) : IsField (name ++ suffix) := by
  obtain ⟨c, rest, text, noDigit⟩ := field.begins
  obtain ⟨d, member, shows⟩ := field.shown
  refine ⟨?_, ⟨c, rest ++ suffix.toList, ?_, noDigit⟩, ⟨d, ?_, shows⟩, ?_⟩ <;> rw [String.toList_append]
  · exact List.forall_mem_append.2 ⟨field.chars, fun c member => (fine c member).1⟩
  · rw [text, List.cons_append]
  · exact List.mem_append_left _ member
  · exact List.forall_mem_append.2 ⟨field.small, fun c member => (fine c member).2⟩

theorem IsField.append_render {name : String} (field : IsField name) (n : Nat) :
    IsField (name ++ Numeral.render n) := by
  apply field.append
  intro c member
  obtain ⟨digit, -, fine⟩ := chars_render member
  exact ⟨fine, (Dialect.plain_of_digit digit).1⟩

theorem isField_positional (position : Nat) : IsField (positional position) := by
  have small : ∀ c ∈ ['a', 'r', 'g'], isUppercase c = false :=
    List.forall_mem_cons.2 ⟨by decide, List.forall_mem_cons.2 ⟨by decide, List.forall_mem_singleton.2 (by decide)⟩⟩
  have bare : IsField "arg" :=
    ⟨List.all_eq_true.1 (by decide), ⟨'a', ['r', 'g'], rfl, rfl⟩, ⟨'a', by decide, by decide⟩, small⟩
  exact bare.append_render position

theorem isField_fieldWish (param : TypedParam) (position : Nat) : IsField (fieldWish param position) := by
  have settles : Settles (positional position).toList ((snakeCase param.name).toList.map clean)
      (fieldWish param position).toList := by
    rw [fieldWish, identifier_eq]
    exact settled_spec _ _
  have fine : ∀ c ∈ (snakeCase param.name).toList.map clean, isIdentifierChar c = true := map_clean_chars
  have small : ∀ c ∈ (snakeCase param.name).toList.map clean, isUppercase c = false := by
    rw [snakeCase, String.toList_ofList]
    exact isUppercase_clean_snakeChars
  generalize (snakeCase param.name).toList.map clean = cleaned at settles fine small
  generalize text : (fieldWish param position).toList = name at settles
  cases settles with
  | blank _ => exact String.toList_inj.1 text ▸ isField_positional position
  | @number c rest digit =>
    have shown : c ≠ '_' := by
      rintro rfl
      cases digit
    refine ⟨?_, ⟨_, _, text, rfl⟩, ⟨c, ?_, shown⟩, ?_⟩ <;> rw [text]
    · exact List.forall_mem_cons.2 ⟨rfl, fine⟩
    · simp
    · exact List.forall_mem_cons.2 ⟨by decide, small⟩
  | plain visible begins =>
    have ⟨c, member, _⟩ := visible
    obtain ⟨first, rest, rfl⟩ := List.exists_cons_of_ne_nil (List.ne_nil_of_mem member)
    exact ⟨text ▸ fine, ⟨first, rest, text, begins first rfl⟩, text ▸ visible, text ▸ small⟩

theorem isField_freshAll (params : List TypedParam) : ∀ name ∈ freshAll [] (fieldWishes params), IsField name := by
  refine forall_freshAll (fun name n field => field.append_render n) fun wish member => ?_
  obtain ⟨⟨param, position⟩, -, rfl⟩ := List.mem_map.1 member
  exact isField_fieldWish param position

theorem IsField.isLegal {name : String} (field : IsField name) (noKeyword : name ∉ keywords)
    (notReserved : name ∉ reserved) : IsLegal name := by
  obtain ⟨c, rest, text, noDigit⟩ := field.begins
  refine ⟨?_, field.chars, ?_, noKeyword, notReserved⟩
  · rintro rfl
    cases text
  · intro d first
    rw [text] at first
    exact Option.some.inj first ▸ noDigit

theorem IsField.mem_reserved_iff {name : String} (field : IsField name) : name ∈ reserved ↔ name ∈ pathWords := by
  constructor
  · intro isReserved
    have split : ∀ word ∈ reserved, word ∈ pathWords ∨ word = "Self" ∨ word = "_" := by decide
    obtain isPath | rfl | rfl := split name isReserved
    · exact isPath
    · have capital : isUppercase 'S' = false := field.small 'S' (by decide)
      revert capital
      decide
    · obtain ⟨c, member, shows⟩ := field.shown
      exact absurd (List.mem_singleton.1 member) shows
  · exact fun isPath => (by decide : ∀ word ∈ pathWords, word ∈ reserved) name isPath

theorem IsField.raw_ne {name : String} (field : IsField name) (word : String) : "r#" ++ word ≠ name := by
  rintro rfl
  have mark : '#' ∈ ("r#" ++ word).toList := by simp [String.toList_append]
  exact absurd (field.chars _ mark) (by decide)

inductive Texts : String → String → Prop
  | path {name : String} (isPath : name ∈ pathWords) : Texts name (name ++ "_")
  | keyword {name : String} (isKeyword : name ∈ keywords) : Texts name ("r#" ++ name)
  | plain {name : String} (noKeyword : name ∉ keywords) (notReserved : name ∉ reserved) : Texts name name

theorem IsField.texts {name : String} (field : IsField name) : Texts name (identifierText name) := by
  unfold identifierText
  split
  · next isReserved => exact .path (field.mem_reserved_iff.1 isReserved)
  · next notReserved =>
    split
    · next isKeyword => exact .keyword isKeyword
    · next noKeyword => exact .plain noKeyword notReserved

theorem IsField.underscored {name : String} (field : IsField name) : IsField (name ++ "_") :=
  field.append (List.forall_mem_singleton.2 ⟨rfl, by decide⟩)

/-- Every field can be declared under its text. -/
theorem IsField.legal {name : String} (field : IsField name) :
    IsLegal (identifierText name) ∨ ∃ word ∈ keywords, identifierText name = "r#" ++ word := by
  have texts := field.texts
  generalize identifierText name = text at texts
  cases texts with
  | path isPath =>
    have free : ∀ word ∈ pathWords, word ++ "_" ∉ keywords ∧ word ++ "_" ∉ reserved := by decide
    obtain ⟨noKeyword, notReserved⟩ := free name isPath
    exact .inl (field.underscored.isLegal noKeyword notReserved)
  | keyword isKeyword => exact .inr ⟨name, isKeyword, rfl⟩
  | plain noKeyword notReserved => exact .inl (field.isLegal noKeyword notReserved)

/-- Two names have one text only if one of them is a word that gets an underscore and the other has it. -/
theorem IsField.eq_of_text {one other : String} (first : IsField one) (second : IsField other)
    (same : identifierText one = identifierText other) :
    one = other ∨ one ∈ pathWords ∧ other = one ++ "_" ∨ other ∈ pathWords ∧ one = other ++ "_" := by
  have textsOne := first.texts
  have textsOther := second.texts
  generalize identifierText one = text, identifierText other = repeated at same textsOne textsOther
  subst same
  generalize again : text = written at textsOther
  cases textsOne with
  | path isPath =>
    cases textsOther with
    | path _ => exact .inl ((String.append_left_inj "_").1 again)
    | keyword _ => exact absurd again.symm (first.underscored.raw_ne other)
    | plain _ _ => exact .inr (.inl ⟨isPath, again.symm⟩)
  | keyword _ =>
    cases textsOther with
    | path _ => exact absurd again (second.underscored.raw_ne one)
    | keyword _ => exact .inl ((String.append_right_inj "r#").1 again)
    | plain _ _ => exact absurd again (second.raw_ne one)
  | plain _ _ =>
    cases textsOther with
    | path isPath => exact .inr (.inr ⟨isPath, again⟩)
    | keyword _ => exact absurd again.symm (first.raw_ne other)
    | plain _ _ => exact .inl again

/-! Fields of one struct -/

def Spelled (params : List TypedParam) (word : String) : Prop :=
  ∃ param ∈ params, (snakeChars false param.name.toList).map clean = word.toList

theorem mem_fieldWishes_iff {word : String} (proper : isWord word = true) (params : List TypedParam) :
    word ∈ fieldWishes params ↔ Spelled params word := by
  have spelled : ∀ (param : TypedParam) (position : Nat), fieldWish param position = word ↔
      (snakeChars false param.name.toList).map clean = word.toList := by
    intro param position
    rw [fieldWish, identifier_positional_iff proper, snakeCase, String.toList_ofList]
  constructor
  · intro member
    obtain ⟨⟨param, position⟩, placed, same⟩ := List.mem_map.1 member
    exact ⟨param, List.fst_mem_of_mem_zipIdx placed, (spelled param position).1 same⟩
  · rintro ⟨param, member, same⟩
    obtain ⟨position, placed⟩ := List.mem_iff_getElem?.1 member
    exact List.mem_map.2 ⟨(param, position), List.mem_zipIdx_iff_getElem?.2 placed, (spelled param position).2 same⟩

theorem identifierText_path {word : String} (isPath : word ∈ pathWords) :
    identifierText word = word ++ "_" ∧ identifierText (word ++ "_") = word ++ "_" ∧ word ≠ word ++ "_" :=
  (by decide : ∀ word ∈ pathWords, identifierText word = word ++ "_" ∧
    identifierText (word ++ "_") = word ++ "_" ∧ word ≠ word ++ "_") word isPath

theorem isWord_path {word : String} (isPath : word ∈ pathWords) : isWord word = true ∧ isWord (word ++ "_") = true :=
  (by decide : ∀ word ∈ pathWords, isWord word = true ∧ isWord (word ++ "_") = true) word isPath

/-- What the fields of a struct are called. -/
structure FieldNames (params : List TypedParam) : Prop where
  each : (fieldNames params).length = params.length
  legal : ∀ name ∈ fieldNames params, IsLegal name ∨ ∃ word ∈ keywords, name = "r#" ++ word
  others : ((fieldNames params).filter (· ∉ pathWords.map (· ++ "_"))).Nodup
  apart : (fieldNames params).Nodup ↔ ∀ word ∈ pathWords, ¬ (Spelled params word ∧ Spelled params (word ++ "_"))

/-- Every parameter of a struct has a field of its own that can be declared, and the fields are pairwise distinct
exactly if no parameter is spelled as a word that gets an underscore beside one that has it already. -/
theorem fields_named (params : List TypedParam) : FieldNames params := by
  have fields := isField_freshAll params
  have distinct := (nodup_freshAll [] (fieldWishes params)).1
  have given : ∀ {word : String}, isWord word = true →
      (word ∈ freshAll [] (fieldWishes params) ↔ Spelled params word) := by
    intro word proper
    rw [mem_freshAll_iff proper, mem_fieldWishes_iff proper]
    simp
  have length : (freshAll [] (fieldWishes params)).length = params.length := by
    rw [length_freshAll, fieldWishes, List.length_map, List.length_zipIdx]
  have same := fieldNames_eq params
  generalize freshAll [] (fieldWishes params) = chosen at fields distinct given length same
  refine ⟨?_, ?_, ?_, ?_⟩ <;> rw [same]
  · rw [List.length_map, length]
  · intro text member
    obtain ⟨name, isChosen, rfl⟩ := List.mem_map.1 member
    exact (fields name isChosen).legal
  · rw [List.Nodup, List.pairwise_filter, List.pairwise_map]
    refine distinct.imp_of_mem fun {one other} memberOne memberOther apart freeOne freeOther texts => ?_
    have escaped : ∀ {word : String}, word ∈ pathWords → identifierText word ∈ pathWords.map (· ++ "_") :=
      fun isPath => List.mem_map.2 ⟨_, isPath, (identifierText_path isPath).1.symm⟩
    obtain equal | ⟨isPath, -⟩ | ⟨isPath, -⟩ := (fields one memberOne).eq_of_text (fields other memberOther) texts
    · exact apart equal
    · exact of_decide_eq_true freeOne (escaped isPath)
    · exact of_decide_eq_true freeOther (escaped isPath)
  · rw [List.nodup_map_iff_inj_on distinct]
    constructor
    · rintro injective word isPath ⟨bare, longer⟩
      obtain ⟨proper, properToo⟩ := isWord_path isPath
      obtain ⟨escaped, kept, differs⟩ := identifierText_path isPath
      exact differs (injective word ((given proper).2 bare) _ ((given properToo).2 longer) (escaped.trans kept.symm))
    · intro free one memberOne other memberOther texts
      have meet : ∀ {word : String}, word ∈ pathWords → word ∈ chosen → word ++ "_" ∈ chosen → False :=
        fun isPath bare longer =>
          free _ isPath ⟨(given (isWord_path isPath).1).1 bare, (given (isWord_path isPath).2).1 longer⟩
      obtain equal | ⟨isPath, rfl⟩ | ⟨isPath, rfl⟩ := (fields one memberOne).eq_of_text (fields other memberOther) texts
      · exact equal
      · exact (meet isPath memberOne memberOther).elim
      · exact (meet isPath memberOther memberOne).elim

example : ¬ (fieldNames [⟨"self", .bool, false⟩, ⟨"self_", .bool, false⟩]).Nodup := by decide

end RustModule
end ContractBuild
