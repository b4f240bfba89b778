import ContractBuild.Binding.Dialect
import ContractBuild.Proofs.Binding.Declarations
import ContractBuild.Proofs.Binding.PropertyNames
import ContractBuild.Proofs.Binding.SignatureTypes

/-!
The places where text of a descriptor stands in generated code as it is: the names of functions and events in a
TypeScript module, and the name of the descriptor in a comment of a Rust module. What stands there stays there
exactly if the names hold no character that is special at the place.
-/
namespace ContractBuild
open Text

/-! Types hold nothing special -/

namespace AbiType
open Numeral (Spells)
open TypeScript (Plain breaks plain_append plain_cons plain_nil)

theorem plain_spells {text : List Char} {value : Nat} (spells : Spells text value) : Plain text := by
  intro c member
  rcases spells.mem member with rfl | digit
  · decide
  · cases special : breaks c with
    | false => rfl
    | true =>
      simp only [breaks, List.mem_cons, List.not_mem_nil, or_false, decide_eq_true_eq] at special
      rcases special with rfl | rfl | rfl | rfl <;> cases digit

theorem Scalar.plain {text : List Char} {type : AbiType} (denoted : Scalar text type) : Plain text := by
  cases denoted with
  | address | bool | string | bytes | wideUint | wideInt => simp [breaks]
  | fixedBytes numeral _ _ | uint numeral _ _ _ | int numeral _ _ _ =>
    exact plain_append.2 ⟨by simp [breaks], plain_spells numeral⟩

mutual

theorem Denotes.plain : ∀ {text : List Char} {components : Option (List Param)} {type : AbiType},
    Denotes text components type → Plain (Param.canonicalOf text components)
  | text, components, _, .scalar base => by
    rw [Param.canonicalOf_of_none base.stripLead?_tuple]
    exact base.plain
  | _, _, _, @Denotes.tuple members _ each => by
    rw [Param.canonicalOf_tuple]
    simp [breaks, each.plain]
  | _, _, _, @Denotes.array text components item inner => by
    rw [Param.canonicalOf_array]
    simp [breaks, inner.plain]
  | _, _, _, @Denotes.fixedArray text digits components item length inner numeral least => by
    rw [Param.canonicalOf_fixedArray]
    simp [breaks, inner.plain, plain_spells numeral]

theorem DenotesEach.plain : ∀ {params : List Param} {typed : List TypedParam}, DenotesEach params typed →
    Plain (Param.memberChars params)
  | [], _, _ => plain_nil
  | [param], _, .cons first _ => by
    rw [Param.memberChars, Param.canonicalChars_eq]
    exact first.plain
  | param :: next :: params, _, .cons first rest => by
    show Plain (param.canonicalChars ++ ',' :: Param.memberChars (next :: params))
    rw [Param.canonicalChars_eq]
    exact plain_append.2 ⟨first.plain, plain_cons.2 ⟨rfl, rest.plain⟩⟩

end

end AbiType

/-! Entries and their declarations -/

structure Records (name key signature : String) (item : Item) : Prop where
  isLabel : name = item.label
  isSignature : signature = item.signature
  isKey : key = name ∨ key = signature
  inputs : ∃ typed, AbiType.ofParams item.inputs = .ok typed

theorem Offer.records_of_made? {offer : Offer} {entry : FunctionEntry} (made : offer.made? = some entry) :
    Records entry.name entry.key entry.signature offer.item := by
  obtain ⟨inputs, outputs, gas, declared, read, -, key, signature, -⟩ := made?_eq_some.1 made
  refine ⟨by rw [declared]; rfl, signature, ?_, by rw [declared]; exact ⟨_, read⟩⟩
  rw [key, signature]
  cases offer.keying with
  | name =>
    rw [declared]
    exact .inl rfl
  | signature => exact .inr rfl

namespace BindingPlan

variable {everyOverload overloaded : Bool} {items : List Item} {events : List EventEntry}
  {functions : List FunctionEntry}

theorem records_of_make {offers : List Offer} (made : Offer.Make offers functions) :
    ∀ entry ∈ functions, ∃ item, Records entry.name entry.key entry.signature item := by
  intro entry listed
  have offered : some entry ∈ offers.map Offer.made? := made ▸ List.mem_map_of_mem listed
  obtain ⟨offer, -, same⟩ := List.mem_map.1 offered
  exact ⟨offer.item, Offer.records_of_made? same⟩

theorem IsEntry.records {item : Item} {entry : EventEntry} (isEntry : IsEntry overloaded item entry) :
    Records entry.name entry.key entry.signature item := by
  cases isEntry with
  | event name anonymous typing =>
    refine ⟨rfl, rfl, ?_, _, typing⟩
    cases overloaded
    · exact .inl rfl
    · exact .inr rfl

theorem records_symbolEntries {symbol : Symbol} (lowered : symbolEntries everyOverload symbol items = .ok (functions, events)) :
    ∀ entry ∈ events, ∃ item, Records entry.name entry.key entry.signature item := by
  cases symbol with
  | function name =>
    rw [symbolEntries] at lowered
    cases taken : overloadEntries everyOverload (items.length > 1) 0 (if everyOverload then items else items.take 1) <;>
      rw [taken] at lowered <;> cases lowered
    exact List.forall_mem_nil _
  | event name =>
    obtain ⟨-, made⟩ := symbolEntries_event lowered
    intro entry listed
    obtain ⟨item, isEntry⟩ := exists_isEntry made entry listed
    exact ⟨item, isEntry.records⟩
  | error name | constructor =>
    rw [symbolEntries] at lowered
    cases taken : checkInputs items <;> rw [taken] at lowered <;> cases lowered
    exact List.forall_mem_nil _
  | fallback | receive =>
    cases lowered
    exact List.forall_mem_nil _

theorem records_groupEntries {descriptor : String} {groups : List (Symbol × List Item)}
    (lowered : groupEntries descriptor everyOverload groups = .ok (functions, events)) :
    ∀ entry ∈ events, ∃ item, Records entry.name entry.key entry.signature item := by
  induction groups generalizing functions events with
  | nil =>
    cases lowered
    exact List.forall_mem_nil _
  | cons group groups ih =>
    obtain ⟨own, ownEvents, more, moreEvents, taken, rest, rfl, rfl⟩ := groupEntries_cons.1 lowered
    exact List.forall_mem_append.2 ⟨records_symbolEntries taken, ih rest⟩

/-- Every entry of a binding records a declaration. -/
theorem records_ofDescriptor {descriptor : Descriptor} {plan : BindingPlan}
    (lowered : ofDescriptor everyOverload descriptor = .ok plan) :
    (∀ entry ∈ plan.functions, ∃ item, Records entry.name entry.key entry.signature item) ∧
      ∀ entry ∈ plan.events, ∃ item, Records entry.name entry.key entry.signature item := by
  obtain ⟨grouped, -⟩ := ofDescriptor_eq_ok.1 lowered
  exact ⟨records_of_make (made_groupEntries (fun _ => Descriptor.symbol_of_mem_grouped) grouped).1,
    records_groupEntries grouped⟩

/-- A descriptor of another name with the same entries has the same binding but for the name. -/
theorem groupEntries_rename {descriptor renamed : String} {groups : List (Symbol × List Item)}
    (lowered : groupEntries descriptor everyOverload groups = .ok (functions, events)) :
    groupEntries renamed everyOverload groups = .ok (functions, events) := by
  induction groups generalizing functions events with
  | nil => exact lowered
  | cons group groups ih =>
    obtain ⟨own, ownEvents, more, moreEvents, taken, rest, same⟩ := groupEntries_cons.1 lowered
    exact groupEntries_cons.2 ⟨own, ownEvents, more, moreEvents, taken, ih rest, same⟩

theorem ofDescriptor_rename {descriptor : Descriptor} {plan : BindingPlan} (renamed : String)
    (lowered : ofDescriptor everyOverload descriptor = .ok plan) :
    ofDescriptor everyOverload { descriptor with name := renamed } = .ok { plan with name := renamed } := by
  obtain ⟨grouped, -, text⟩ := ofDescriptor_eq_ok.1 lowered
  exact ofDescriptor_eq_ok.2 ⟨groupEntries_rename grouped, rfl, text⟩

end BindingPlan

/-! Function names and event names in a TypeScript module -/

namespace Records
open TypeScript

variable {name key signature : String} {item : Item} {letters : Letters}

theorem plain_signature_iff (records : Records name key signature item) :
    Plain signature.toList ↔ Plain name.toList := by
  obtain ⟨typed, read⟩ := records.inputs
  have types := (AbiType.denotesEach_of_ofParams read).plain
  rw [records.isSignature, records.isLabel, Item.signature]
  simp [breaks, types]

theorem fits_iff (records : Records name key signature item) :
    Fits letters key.toList ↔ if '(' ∈ key.toList then Plain name.toList else IsIdentifier letters name.toList := by
  rcases records.isKey with rfl | rfl
  · rfl
  · have opens : '(' ∈ key.toList := by simp [records.isSignature, Item.signature]
    rw [Fits, if_pos opens, if_pos opens, records.plain_signature_iff]

end Records

namespace TypeScript

/-- The lines of a module that its entries have no part in. -/
structure Frame where
  front : List String
  contract : List String
  calls : List String
  filters : List String
  back : List String

/-- The lines of a frame around those of the entries. -/
def Frame.lines (frame : Frame) (plan : BindingPlan) : List String :=
  frame.front
    ++ (fragments plan).map (fun fragment => "    \"" ++ fragment ++ "\": utils.FunctionFragment;")
    ++ frame.contract
    ++ plan.functions.map (fun entry => "    " ++ propertyKey entry.key ++ "(" ++
      ((functionView entry).params ++ "): Promise<" ++ (functionView entry).wrapped ++ ">;"))
    ++ frame.calls
    ++ plan.functions.map (fun entry => "  " ++ propertyKey entry.key ++ "(" ++
      ((functionView entry).params ++ "): Promise<" ++ (functionView entry).direct ++ ">;"))
    ++ frame.filters
    ++ plan.events.map (fun entry => "    " ++ propertyKey entry.key ++ "(" ++
      ((eventView entry).params ++ "): EventFilter;"))
    ++ frame.back

/-- Apart from its entries a module is told by its header, the name of its type and the text of its interface. -/
theorem exists_frame (header type interfaceText : String) : ∃ frame : Frame, ∀ plan : BindingPlan,
    typeName plan.name = type → plan.interfaceText = interfaceText →
      render header plan = linesText (frame.lines plan) := by
  refine ⟨{
    front := banner header ++ importLines ++
      ["", "export interface " ++ type ++ "Interface extends utils.Interface \x7b", "  functions: \x7b"]
    contract := ["  \x7d;", "\x7d", "", "export interface " ++ type ++ " extends BaseContract \x7b",
      "  interface: " ++ type ++ "Interface;", "",
      "  connect(signerOrProvider: Signer | providers.Provider | string): this;",
      "  attach(addressOrName: string): this;", "  deployed(): Promise<this>;", "", "  functions: \x7b"]
    calls := ["  \x7d;", ""]
    filters := ["", "  filters: \x7b"]
    back := ["  \x7d;", "\x7d", "", "export const " ++ type ++ "__abi = " ++ interfaceText ++ " as const;", ""] ++
      connectLines type }, ?_⟩
  rintro plan rfl rfl
  simp only [render, Frame.lines, interfaceLines, contractLines, List.map_map, List.append_assoc, List.cons_append,
    List.nil_append, String.append_assoc]
  rfl

/-- A signature is among the fragments exactly if it is that of an entry. -/
theorem mem_fragments {plan : BindingPlan} {signature : String} :
    signature ∈ fragments plan ↔ ∃ entry ∈ plan.functions, entry.signature = signature := by
  have collected : ∀ (entries : List FunctionEntry) (seen : List String),
      signature ∈ entries.foldl (fun seen entry =>
        if entry.signature ∈ seen then seen else seen ++ [entry.signature]) seen ↔
      signature ∈ seen ∨ ∃ entry ∈ entries, entry.signature = signature := by
    intro entries
    induction entries with
    | nil => simp
    | cons entry entries ih =>
      intro seen
      rw [List.foldl_cons, ih]
      split
      · next known =>
        constructor
        · rintro (inside | ⟨other, listed, same⟩)
          · exact .inl inside
          · exact .inr ⟨other, List.mem_cons_of_mem _ listed, same⟩
        · rintro (inside | ⟨other, _ | ⟨_, listed⟩, same⟩)
          · exact .inl inside
          · exact .inl (same ▸ known)
          · exact .inr ⟨other, listed, same⟩
      · simp [or_assoc, eq_comm]
  exact (collected plan.functions []).trans (by simp)

end TypeScript

/-! The name of the descriptor in a Rust module -/

namespace RustModule

def behindLine (text : List Char) : List Char :=
  text.dropWhile (· ≠ '\n')

theorem behindLine_append (name rest : List Char) :
    behindLine (name ++ rest) = if '\n' ∈ name then behindLine name ++ rest else behindLine rest := by
  unfold behindLine
  induction name with
  | nil => rfl
  | cons c name ih =>
    by_cases ends : c = '\n'
    · subst ends
      simp
    · have stays : ¬ '\n' = c := fun same => ends same.symm
      simpa [ends, stays] using ih

theorem behindLine_eq_nil {name : List Char} (absent : '\n' ∉ name) : behindLine name = [] := by
  refine List.dropWhile_eq_nil_iff.2 fun c member => decide_eq_true ?_
  rintro rfl
  exact absent member

theorem behindLine_ne_nil {name : List Char} (present : '\n' ∈ name) : behindLine name ≠ [] := by
  intro nothing
  have all := List.dropWhile_eq_nil_iff.1 nothing _ present
  simp at all

/-- Whether what follows a comment depends on the name in it. -/
theorem behindLine_name_iff (front name other back code : List Char) (plain : '\n' ∉ front) (plainBack : '\n' ∉ back)
    (filled : back ≠ []) :
    behindLine (front ++ (name ++ (back ++ '\n' :: code))) = behindLine (front ++ (other ++ (back ++ '\n' :: code))) ↔
      behindLine name = behindLine other := by
  have behindBack : behindLine (back ++ '\n' :: code) = '\n' :: code := by
    rw [behindLine_append, if_neg plainBack]
    rfl
  -- what is behind a name with a line feed is longer than what is behind one without
  have longer : ∀ {name : List Char}, '\n' ∈ name → behindLine name ++ (back ++ '\n' :: code) ≠ '\n' :: code := by
    intro name _ same
    have lengths := congrArg List.length same
    have some : 0 < back.length := List.length_pos_iff.2 filled
    rw [List.length_append, List.length_append] at lengths
    omega
  rw [behindLine_append, if_neg plain, behindLine_append front, if_neg plain, behindLine_append name,
    behindLine_append other, behindBack]
  by_cases present : '\n' ∈ name <;> by_cases presentToo : '\n' ∈ other
  · rw [if_pos present, if_pos presentToo, List.append_cancel_right_eq]
  · rw [if_pos present, if_neg presentToo, behindLine_eq_nil presentToo]
    exact iff_of_false (longer present) (behindLine_ne_nil present)
  · rw [if_neg present, if_pos presentToo, behindLine_eq_nil present]
    exact iff_of_false (longer presentToo).symm (behindLine_ne_nil presentToo).symm
  · rw [if_neg present, if_neg presentToo, behindLine_eq_nil present, behindLine_eq_nil presentToo]
    exact iff_of_true rfl rfl

/-- The sections owe nothing to the name of the descriptor but the name of the enum. -/
theorem sections_rename {plan : BindingPlan} {renamed : String}
    (same : typeStem (Name.pascalCase renamed) = typeStem (Name.pascalCase plan.name)) :
    sections (layout { plan with name := renamed }) = sections (layout plan) := by
  simp only [sections, layout, interfaceTokens, enumTokens, same]

end RustModule

namespace Dialect
open BindingPlan (ofDescriptor)
open TypeScript (Letters Frame Literal PropertyName ReadAs Plain IsIdentifier linesText typeName propertyKey fragments
  literal_iff propertyName_iff exists_frame mem_fragments)

def headerLine : List Char :=
  "// ".toList ++ header.toList ++ ['\n']

/-- Two modules of one interface under names with the same type name: what is behind the comment on the second line is
the same exactly if the names are, from the first line feed on. -/
theorem render_rename {plan : BindingPlan} {renamed : String}
    (same : RustModule.typeStem (Name.pascalCase renamed) = RustModule.typeStem (Name.pascalCase plan.name)) :
    ∃ tail other, (rust.render plan).toList = headerLine ++ '/' :: '/' :: tail ∧
      (rust.render { plan with name := renamed }).toList = headerLine ++ '/' :: '/' :: other ∧
      (RustModule.behindLine tail = RustModule.behindLine other ↔
        RustModule.behindLine plan.name.toList = RustModule.behindLine renamed.toList) := by
  let code := (RustModule.tokens RustModule.importTokens ++ "\n" ++ String.join
    ((RustModule.sections (RustModule.layout plan)).map fun list => "\n" ++ RustModule.tokens list ++ "\n")).toList
  have text : ∀ name : String, RustModule.typeStem (Name.pascalCase name) = RustModule.typeStem (Name.pascalCase plan.name) →
      (rust.render { plan with name }).toList = headerLine ++ '/' :: '/' ::
        (" Bindings for `".toList ++ (name.toList ++ ("`.".toList ++ '\n' :: '\n' :: code))) := by
    intro name sameStem
    rw [render, RustModule.render, RustModule.sections_rename sameStem]
    simp [headerLine, RustModule.layout, code]
  exact ⟨_, _, text plan.name rfl, text renamed same, RustModule.behindLine_name_iff _ _ _ _ _ (by decide) (by decide)
    (by decide)⟩

/-- Where the text of a descriptor that can be lowered stands in its modules. In a TypeScript module all but the lines of
the entries is told by the header, the type name and the interface text. The signature of an entry reads as itself
between its quotes exactly if the name of the entry is plain; a key reads as itself in front of its parameters exactly
if that name is plain, where it is put in quotes, or is an identifier. A Rust module under another name with the same
type name differs in one comment only, exactly if both names go on in the same way from their first line feed on. -/
theorem places_of_names (letters : Letters) {everyOverload : Bool} {descriptor : Descriptor}
    {plan : BindingPlan} (lowered : ofDescriptor everyOverload descriptor = .ok plan) :
    ((∃ frame : Frame, ∀ other : BindingPlan,
        typeName other.name = typeName plan.name → other.interfaceText = plan.interfaceText →
          ethersV5.render other = linesText (frame.lines other)) ∧
      ∀ signature, signature ∈ fragments plan ↔ ∃ entry ∈ plan.functions, entry.signature = signature) ∧
    (∀ entry ∈ plan.functions, ∀ rest, ReadAs Literal (entry.signature.toList ++ '"' :: rest) entry.signature.toList rest ↔
      Plain entry.name.toList) ∧
    (∀ entry ∈ plan.functions, ∀ rest, ReadAs (PropertyName letters) ((propertyKey entry.key).toList ++ '(' :: rest)
      entry.key.toList ('(' :: rest) ↔
        if '(' ∈ entry.key.toList then Plain entry.name.toList else IsIdentifier letters entry.name.toList) ∧
    (∀ entry ∈ plan.events, ∀ rest, ReadAs (PropertyName letters) ((propertyKey entry.key).toList ++ '(' :: rest)
      entry.key.toList ('(' :: rest) ↔
        if '(' ∈ entry.key.toList then Plain entry.name.toList else IsIdentifier letters entry.name.toList) ∧
    ∀ renamed : String,
      RustModule.typeStem (Name.pascalCase renamed) = RustModule.typeStem (Name.pascalCase descriptor.name) →
      ofDescriptor everyOverload { descriptor with name := renamed } = .ok { plan with name := renamed } ∧
      ∃ tail other, (rust.render plan).toList = headerLine ++ '/' :: '/' :: tail ∧
        (rust.render { plan with name := renamed }).toList = headerLine ++ '/' :: '/' :: other ∧
        (RustModule.behindLine tail = RustModule.behindLine other ↔
          RustModule.behindLine descriptor.name.toList = RustModule.behindLine renamed.toList) := by
  obtain ⟨functions, events⟩ := BindingPlan.records_ofDescriptor lowered
  refine ⟨⟨exists_frame header _ _, fun _ => mem_fragments⟩, ?_, ?_, ?_, ?_⟩
  · intro entry listed rest
    obtain ⟨item, records⟩ := functions entry listed
    rw [literal_iff, records.plain_signature_iff]
  · intro entry listed rest
    obtain ⟨item, records⟩ := functions entry listed
    rw [propertyName_iff, records.fits_iff]
  · intro entry listed rest
    obtain ⟨item, records⟩ := events entry listed
    rw [propertyName_iff, records.fits_iff]
  · intro renamed same
    obtain ⟨-, name, -⟩ := BindingPlan.ofDescriptor_eq_ok.1 lowered
    rw [← name] at same ⊢
    exact ⟨BindingPlan.ofDescriptor_rename renamed lowered, render_rename same⟩

def quoted : Descriptor where
  name := "a b"
  items := [.function "pay\"(" [] [] .nonpayable none]

def quotedEntry : FunctionEntry where
  name := "pay\"("
  key := "pay\"("
  signature := "pay\"(()"
  overloaded := false
  ordinal := 0
  inputs := []
  outputs := []
  mutability := .nonpayable

/-- A quote in the name of a function ends the literals of its signature and its key, and a line feed in the name of a
descriptor ends its comment. -/
theorem places_of_quote :
    let letters : Letters := ⟨fun _ => false, fun _ => false⟩
    ∃ plan, ofDescriptor false quoted = .ok plan ∧
    (∃ entry ∈ plan.functions, ∀ rest,
      ¬ ReadAs Literal (entry.signature.toList ++ '"' :: rest) entry.signature.toList rest ∧
      ¬ ReadAs (PropertyName letters) ((propertyKey entry.key).toList ++ '(' :: rest) entry.key.toList ('(' :: rest)) ∧
    ∃ tail other, (rust.render plan).toList = headerLine ++ '/' :: '/' :: tail ∧
      (rust.render { plan with name := "a\nb" }).toList = headerLine ++ '/' :: '/' :: other ∧
      RustModule.behindLine tail ≠ RustModule.behindLine other := by
  intro letters
  have lowered : ofDescriptor false quoted = .ok ⟨"a b", [quotedEntry], [], (Item.listToJson quoted.items).compact⟩ :=
    BindingPlan.ofDescriptor_eq_ok.2 ⟨rfl, rfl, rfl⟩
  have sameType : RustModule.typeStem (Name.pascalCase "a\nb") = RustModule.typeStem (Name.pascalCase quoted.name) := by
    decide
  have special : ¬ Plain quotedEntry.name.toList := fun plain => absurd (plain '"' (by decide)) (by decide)
  obtain ⟨-, fragment, key, -, rust⟩ := places_of_names letters lowered
  obtain ⟨-, tail, other, text, textToo, same⟩ := rust "a\nb" sameType
  have opens : '(' ∈ quotedEntry.key.toList := by decide
  refine ⟨_, lowered, ⟨quotedEntry, List.mem_cons_self, fun rest => ⟨?_, ?_⟩⟩, tail, other, text, textToo, ?_⟩
  · exact fun reads => special ((fragment quotedEntry List.mem_cons_self rest).1 reads)
  · intro reads
    have plain := (key quotedEntry List.mem_cons_self rest).1 reads
    rw [if_pos opens] at plain
    exact special plain
  · exact fun equal => absurd (same.1 equal) (by decide)

end Dialect
end ContractBuild
