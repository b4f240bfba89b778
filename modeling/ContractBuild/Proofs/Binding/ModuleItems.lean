import ContractBuild.Proofs.Binding.Declarations
import ContractBuild.Proofs.Binding.StemNames

/-!
The items of a module, read off the tokens that it is written with. There is a struct for each call with an
alias for what it returns, a struct for each event, the interface, and an enum with a variant for each
call; all of them have legal names of their own.
-/
namespace ContractBuild
open Text

namespace RustModule
open Name (freshAll)

/-! Reading tokens -/

def declared : List String → List (String × String)
  | "pub" :: kind :: name :: rest => (kind, name) :: declared rest
  | _ :: rest => declared rest
  | [] => []

def variants : List String → List (String × String)
  | name :: held :: "," :: rest => (name, held) :: variants rest
  | _ => []

theorem declared_append {front rest : List String} (silent : "pub" ∉ front) :
    declared (front ++ rest) = declared rest := by
  induction front with
  | nil => rfl
  | cons token front ih =>
    obtain ⟨differs, others⟩ := not_or.1 fun member => silent (List.mem_cons.2 member)
    rw [List.cons_append, declared.eq_2 _ _ fun _ _ _ same => absurd same.symm differs, ih others]

theorem declared_of_silent {list : List String} (silent : "pub" ∉ list) : declared list = [] := by
  have whole := @declared_append list [] silent
  rwa [List.append_nil] at whole

theorem declared_pub (kind name : String) {rest : List String} :
    declared ("pub" :: kind :: name :: rest) = (kind, name) :: declared rest :=
  rfl

/-! Tokens that declare nothing -/

theorem ne_pub_of_head {token : String} {c : Char} (head : token.toList.head? = some c) (differs : c ≠ 'p') :
    "pub" ≠ token := by
  rintro rfl
  exact differs (Option.some.inj head).symm

theorem inParens_ne_pub (list : List String) : "pub" ≠ inParens list :=
  ne_pub_of_head (by rw [inParens, String.append_assoc, String.toList_append]; rfl) (by decide)

theorem inBrackets_ne_pub (list : List String) : "pub" ≠ inBrackets list :=
  ne_pub_of_head (by rw [inBrackets, String.append_assoc, String.toList_append]; rfl) (by decide)

theorem inBraces_ne_pub (list : List String) : "pub" ≠ inBraces list := by
  refine ne_pub_of_head (c := '\x7b') ?_ (by decide)
  cases list <;> simp [inBraces, tokens, join]

theorem literal_ne_pub (text : String) : "pub" ≠ Enclosed.literal text :=
  ne_pub_of_head (by rw [Enclosed.literal, String.toList_ofList]; rfl) (by decide)

theorem documented_silent (text : String) : "pub" ∉ documented text := by
  simp [documented, inBrackets_ne_pub]

theorem derived_silent : "pub" ∉ derived := by
  simp [derived, annotated, inBrackets_ne_pub]

theorem integerType_silent {sign wide : String} (signs : sign = "u" ∨ sign = "i") (apart : "pub" ≠ wide) (bits : Nat) :
    "pub" ∉ integerType sign wide bits := by
  unfold integerType
  rcases signs with rfl | rfl <;> repeat' split
  all_goals simp [apart]

theorem typeTokens_silent (type : AbiType) : "pub" ∉ typeTokens type := by
  cases type with
  | address | bool | string | bytes => decide
  | fixedBytes size => simp [typeTokens, inBrackets_ne_pub]
  | uint bits => exact integerType_silent (.inl rfl) (by decide) bits
  | int bits => exact integerType_silent (.inr rfl) (by decide) bits
  | array item => simp [typeTokens, typeTokens_silent item]
  | fixedArray item length => simp [typeTokens, inBrackets_ne_pub]
  | tuple members => simp [typeTokens, inParens_ne_pub]

theorem returnTokens_silent (outputs : List TypedParam) : "pub" ∉ returnTokens outputs := by
  unfold returnTokens
  split
  · exact typeTokens_silent _
  · simp [inParens_ne_pub]

theorem ne_pub_of_last {token : String} {c : Char} (last : token.toList.getLast? = some c) (differs : c ≠ 'b') :
    "pub" ≠ token := by
  rintro rfl
  exact differs (Option.some.inj last).symm

/-! What the sections declare -/

theorem declared_documented (text : String) (rest : List String) : declared (documented text ++ rest) = declared rest :=
  declared_append (documented_silent text)

theorem declared_derived (rest : List String) : declared (derived ++ rest) = declared rest :=
  declared_append derived_silent

theorem declared_interfaceTokens (layout : Layout) : declared (interfaceTokens layout) = [("const", "ABI")] := by
  rw [interfaceTokens, declared_documented, declared_pub, declared_of_silent]
  simp [literal_ne_pub]

theorem declared_callTokens (call : Call) :
    declared (callTokens call) = [("struct", call.stem ++ "Call"), ("type", call.stem ++ "Return")] := by
  have own : "pub" ≠ call.stem ++ "Call" := ne_pub_of_last (c := 'l') (by simp) (by decide)
  have last : "pub" ∉ "=" :: (returnTokens call.entry.outputs ++ [";"]) := by
    simp [returnTokens_silent]
  have middle : ∀ fields constants : List String,
      "pub" ∉ [inBraces fields, "impl", call.stem ++ "Call", inBraces constants] := by
    simp [inBraces_ne_pub, own]
  unfold callTokens
  dsimp only
  simp only [List.append_assoc]
  rw [declared_documented, declared_derived, List.cons_append, List.cons_append, List.cons_append, declared_pub,
    declared_append (middle _ _), declared_documented]
  show _ :: declared ("pub" :: "type" :: (call.stem ++ "Return") :: "=" :: (returnTokens call.entry.outputs ++ [";"])) = _
  rw [declared_pub, declared_of_silent last]

theorem declared_eventTokens (event : EventStruct) :
    declared (eventTokens event) = [("struct", event.stem ++ "Event")] := by
  have own : "pub" ≠ event.stem ++ "Event" := ne_pub_of_last (c := 't') (by simp) (by decide)
  unfold eventTokens
  dsimp only
  rw [List.append_assoc, List.append_assoc, declared_documented, declared_derived, declared_pub, declared_of_silent]
  simp [inBraces_ne_pub, own]

theorem declared_enumTokens (layout : Layout) (named : "pub" ≠ layout.enumName) :
    declared (enumTokens layout) = [("enum", layout.enumName)] := by
  unfold enumTokens
  dsimp only
  rw [List.append_assoc, declared_documented, declared_derived, declared_pub, declared_of_silent]
  simp [inBraces_ne_pub, named]

/-- What the sections of a module declare together. -/
theorem declared_sections (layout : Layout) (named : "pub" ≠ layout.enumName) :
    (sections layout).flatMap declared = ("const", "ABI") ::
      (layout.calls.flatMap fun call => [("struct", call.stem ++ "Call"), ("type", call.stem ++ "Return")]) ++
      (layout.events.map fun event => ("struct", event.stem ++ "Event")) ++ [("enum", layout.enumName)] := by
  rw [sections, List.flatMap_append, List.flatMap_append, List.flatMap_cons, List.flatMap_singleton,
    declared_interfaceTokens, declared_enumTokens layout named, List.flatMap_map, List.flatMap_map]
  simp only [declared_callTokens, declared_eventTokens]
  have single : (layout.events.flatMap fun event => [("struct", event.stem ++ "Event")]) =
      layout.events.map fun event => ("struct", event.stem ++ "Event") := List.flatMap_pure_eq_map _ _
  rw [single]
  rfl

theorem variants_calls (calls : List Call) :
    variants (calls.flatMap fun call => [call.stem, inParens [call.stem ++ "Call"], ","]) =
      calls.map fun call => (call.stem, inParens [call.stem ++ "Call"]) := by
  induction calls with
  | nil => rfl
  | cons call calls ih =>
    rw [List.flatMap_cons, List.map_cons, ← ih]
    rfl

/-! Names of items -/

def itemNames (calls events : List String) (enumName : String) : List String :=
  "ABI" :: (calls.flatMap fun stem => [stem ++ "Call", stem ++ "Return"]) ++ events.map (· ++ "Event") ++ [enumName]

def ending (name : String) : Option Char :=
  name.toList.getLast?

theorem ending_append (stem : String) {suffix : String} {c : Char} (ends : ending suffix = some c) :
    ending (stem ++ suffix) = some c := by
  rw [ending, String.toList_append, List.getLast?_append, show suffix.toList.getLast? = some c from ends]
  rfl

theorem ne_of_ending {one other : String} {c d : Char} (isOne : ending one = some c) (isOther : ending other = some d)
    (differs : c ≠ d) : one ≠ other := by
  rintro rfl
  exact differs (Option.some.inj (isOne.symm.trans isOther))

theorem ending_call (stem : String) : ending (stem ++ "Call") = some 'l' := ending_append stem (by decide)

theorem ending_return (stem : String) : ending (stem ++ "Return") = some 'n' := ending_append stem (by decide)

theorem ending_event (stem : String) : ending (stem ++ "Event") = some 't' := ending_append stem (by decide)

theorem ending_calls (stem : String) : ending (stem ++ "Calls") = some 's' := ending_append stem (by decide)

theorem nodup_callNames {calls : List String} (nodup : calls.Nodup) :
    (calls.flatMap fun stem => [stem ++ "Call", stem ++ "Return"]).Nodup := by
  rw [List.nodup_flatMap]
  refine ⟨fun stem _ => ?_, nodup.imp fun {one other} differs => ?_⟩
  · exact List.pairwise_pair.2 (ne_of_ending (ending_call stem) (ending_return stem) (by decide))
  · have crossed := ne_of_ending (ending_call other) (ending_return one) (by decide)
    have crossedToo := ne_of_ending (ending_return other) (ending_call one) (by decide)
    simp [Function.onFun, Ne.symm differs, crossed, crossedToo]

/-- Stems of one kind differ among themselves, and what they are given at the end tells the kinds apart. -/
theorem nodup_itemNames {calls events : List String} (nodupCalls : calls.Nodup) (nodupEvents : events.Nodup)
    (stem : String) : (itemNames calls events (stem ++ "Calls")).Nodup := by
  have interface : ending "ABI" = some 'I' := by decide
  have ofCalls : ∀ name ∈ calls.flatMap fun stem => [stem ++ "Call", stem ++ "Return"],
      ending name = some 'l' ∨ ending name = some 'n' := by
    intro name member
    obtain ⟨stem, -, inside⟩ := List.mem_flatMap.1 member
    rcases List.mem_cons.1 inside with rfl | last
    · exact .inl (ending_call stem)
    · rw [List.mem_singleton.1 last]
      exact .inr (ending_return stem)
  have ofEvents : ∀ name ∈ events.map (· ++ "Event"), ending name = some 't' := by
    intro name member
    obtain ⟨stem, -, rfl⟩ := List.mem_map.1 member
    exact ending_event stem
  rw [itemNames, List.nodup_append, List.nodup_append, List.nodup_cons]
  refine ⟨⟨⟨fun member => ?_, nodup_callNames nodupCalls⟩, ?_, ?_⟩, List.nodup_singleton _, ?_⟩
  · rcases ofCalls _ member with ends | ends <;> exact ne_of_ending interface ends (by decide) rfl
  · exact nodupEvents.map fun _ _ same => (String.append_left_inj "Event").1 same
  · intro name member other later
    rcases List.mem_cons.1 member with rfl | isCall
    · exact ne_of_ending interface (ofEvents other later) (by decide)
    · rcases ofCalls name isCall with ends | ends <;> exact ne_of_ending ends (ofEvents other later) (by decide)
  · intro name member other last
    rw [List.mem_singleton.1 last]
    rcases List.mem_append.1 member with earlier | isEvent
    · rcases List.mem_cons.1 earlier with rfl | isCall
      · exact ne_of_ending interface (ending_calls stem) (by decide)
      · rcases ofCalls name isCall with ends | ends <;> exact ne_of_ending ends (ending_calls stem) (by decide)
    · exact ne_of_ending (ofEvents name isEvent) (ending_calls stem) (by decide)

/-- The names are legal, as the stems are free. -/
theorem isLegal_itemNames {calls events : List String} (freeCalls : ∀ stem ∈ calls, IsFree stem)
    (freeEvents : ∀ stem ∈ events, IsFree stem) {stem : String} (free : IsFree stem) :
    ∀ name ∈ itemNames calls events (stem ++ "Calls"), IsLegal name := by
  have behind : ∀ {stem}, IsFree stem → ∀ suffix ∈ ["Call", "Return", "Event", "Calls"], IsLegal (stem ++ suffix) := by
    intro stem free suffix known
    have fine : (["Call", "Return", "Event", "Calls"].all fun suffix => suffix.toList.all Name.isIdentifierChar &&
        suffix.toList != [] && suffix.toList.getLast? != some 'f') = true := by decide
    have here := List.all_eq_true.1 fine suffix known
    rw [Bool.and_eq_true, Bool.and_eq_true, bne_iff_ne, bne_iff_ne, and_assoc] at here
    exact free.1.isLegal_append (List.all_eq_true.1 here.1) here.2.1 here.2.2
  intro name member
  rcases List.mem_append.1 member with earlier | last
  · rcases List.mem_append.1 earlier with first | isEvent
    · rcases List.mem_cons.1 first with rfl | isCall
      · exact ⟨by decide, List.all_eq_true.1 (by decide), fun c begins => by cases begins; rfl, by decide, by decide⟩
      · obtain ⟨own, listed, inside⟩ := List.mem_flatMap.1 isCall
        rcases List.mem_cons.1 inside with rfl | isReturn
        · exact behind (freeCalls own listed) "Call" (by simp)
        · rw [List.mem_singleton.1 isReturn]
          exact behind (freeCalls own listed) "Return" (by simp)
    · obtain ⟨own, listed, rfl⟩ := List.mem_map.1 isEvent
      exact behind (freeEvents own listed) "Event" (by simp)
  · rw [List.mem_singleton.1 last]
    exact behind free "Calls" (by simp)

/-! The layout of a binding -/

variable {plan : BindingPlan}

theorem stems_calls (plan : BindingPlan) :
    (layout plan).calls.map (·.stem) = freshAll [] ((plan.functions.filter hasStruct).map callWish) ∧
      (layout plan).calls.map (·.entry) = plan.functions.filter hasStruct := by
  have lengths := Name.length_freshAll [] ((plan.functions.filter hasStruct).map callWish)
  rw [List.length_map] at lengths
  constructor
  · rw [layout, List.map_map]
    exact List.map_fst_zip (Nat.le_of_eq lengths)
  · rw [layout, List.map_map]
    exact List.map_snd_zip (Nat.le_of_eq lengths.symm)

theorem stems_events (plan : BindingPlan) :
    (layout plan).events.map (·.stem) =
        freshAll [] (plan.events.map fun event => typeStem (Name.pascalCase event.name)) ∧
      (layout plan).events.map (·.entry) = plan.events := by
  have lengths := Name.length_freshAll [] (plan.events.map fun event => typeStem (Name.pascalCase event.name))
  rw [List.length_map] at lengths
  constructor
  · rw [layout, List.map_map]
    exact List.map_fst_zip (Nat.le_of_eq lengths)
  · rw [layout, List.map_map]
    exact List.map_snd_zip (Nat.le_of_eq lengths.symm)

structure Covers (everyOverload : Bool) (descriptor : Descriptor) (layout : Layout) : Prop where
  /-- With every overload the calls are those of the declared functions, each once. -/
  every : everyOverload = true → (layout.calls.map (·.entry.title)).Perm
    ((descriptor.items.filter Item.isFunction).map Item.title)
  /-- Otherwise they are those of the first declaration of each name. -/
  first : everyOverload = false → layout.calls.map (·.entry.title) = descriptor.firstFunctions.map Item.title ∧
    layout.calls.map (·.entry.name) = descriptor.functionNames ∧ descriptor.functionNames.Nodup
  events : (layout.events.map (·.entry.title)).Perm ((descriptor.items.filter Item.isEvent).map Item.title)

structure Reads (layout : Layout) : Prop where
  items : (sections layout).flatMap declared = ("const", "ABI") ::
    (layout.calls.flatMap fun call => [("struct", call.stem ++ "Call"), ("type", call.stem ++ "Return")]) ++
    (layout.events.map fun event => ("struct", event.stem ++ "Event")) ++ [("enum", layout.enumName)]
  signatures : ∀ call ∈ layout.calls, ∃ part ∈ sections layout, ∃ constants,
    declared part = [("struct", call.stem ++ "Call"), ("type", call.stem ++ "Return")] ∧
    ["impl", call.stem ++ "Call", inBraces constants] <:+: part ∧
    ["pub", "const", "SIGNATURE", ":", "&", "'static", "str", "=", Enclosed.literal call.entry.signature, ";"] <:+:
      constants
  variants : ∃ part ∈ sections layout, ∃ body, declared part = [("enum", layout.enumName)] ∧
    ["enum", layout.enumName, inBraces body] <:+: part ∧
    RustModule.variants body = layout.calls.map fun call => (call.stem, inParens [call.stem ++ "Call"])

theorem reads_layout (layout : Layout) (named : "pub" ≠ layout.enumName) : Reads layout := by
  refine ⟨declared_sections layout named, fun call member => ?_, ?_⟩
  · let fields := ((fieldNames call.entry.inputs).zip call.entry.inputs).flatMap fun field =>
      ["pub", field.1, ":"] ++ typeTokens field.2.type ++ [","]
    let constants := textConstant "Canonical signature" "SIGNATURE" call.entry.signature
      ++ textConstant "State mutability" "MUTABILITY" call.entry.mutability.text
    have isSection : callTokens call ∈ sections layout :=
      List.mem_append_left _ (List.mem_append_left _ (List.mem_cons_of_mem _ (List.mem_map_of_mem member)))
    refine ⟨callTokens call, isSection, constants, declared_callTokens call, ?_, ?_⟩
    · refine ⟨documented ("Call `" ++ call.entry.signature ++ "`") ++ derived ++
          ["pub", "struct", call.stem ++ "Call", inBraces fields],
        documented "Decoded outputs of the call" ++ ["pub", "type", call.stem ++ "Return", "="] ++
          returnTokens call.entry.outputs ++ [";"], ?_⟩
      simp only [callTokens, constants, fields, List.append_assoc, List.cons_append, List.nil_append]
    · exact ⟨documented "Canonical signature", textConstant "State mutability" "MUTABILITY" call.entry.mutability.text,
        by simp [constants, textConstant]⟩
  · have isSection : enumTokens layout ∈ sections layout := List.mem_append_right _ (List.mem_singleton.2 rfl)
    exact ⟨enumTokens layout, isSection, _, declared_enumTokens layout named,
      ⟨documented "Every call of the contract" ++ derived ++ ["pub"], _, by
        simp only [enumTokens, List.append_assoc, List.cons_append, List.nil_append]
        rfl⟩, variants_calls layout.calls⟩

theorem covers_layout {everyOverload : Bool} {descriptor : Descriptor}
    (lowered : BindingPlan.ofDescriptor everyOverload descriptor = .ok plan) :
    Covers everyOverload descriptor (layout plan) := by
  obtain ⟨every, first, events⟩ := BindingPlan.titles_spec lowered
  have calls : (layout plan).calls.map (·.entry.title) =
      (plan.functions.filter hasStruct).map FunctionEntry.title := by
    rw [← (stems_calls plan).2, List.map_map]
    rfl
  refine ⟨fun all => calls ▸ every all, fun named => ?_, ?_⟩
  · have titles := calls.trans (first named)
    have names := congrArg (List.map Prod.fst) titles
    rw [List.map_map, List.map_map] at names
    exact ⟨titles, names.trans descriptor.label_firstFunctions, descriptor.nodup_functionNames⟩
  · rw [show (layout plan).events.map (·.entry.title) = plan.events.map EventEntry.title by
      rw [← (stems_events plan).2, List.map_map]; rfl]
    exact events

/-- The names that the layout of a binding gives are those of its stems. -/
theorem names_sections (plan : BindingPlan) :
    ((sections (layout plan)).flatMap declared).map Prod.snd =
      itemNames ((layout plan).calls.map (·.stem)) ((layout plan).events.map (·.stem))
        (typeStem (Name.pascalCase plan.name) ++ "Calls") := by
  have named : "pub" ≠ (layout plan).enumName := ne_pub_of_last (ending_calls _) (by decide)
  rw [declared_sections _ named, itemNames, List.map_append, List.map_append, List.map_cons, List.map_flatMap,
    List.flatMap_map, List.map_map, List.map_map]
  rfl

theorem isFree_calls (plan : BindingPlan) :
    ((layout plan).calls.map (·.stem)).Nodup ∧ ∀ stem ∈ (layout plan).calls.map (·.stem), IsFree stem := by
  rw [(stems_calls plan).1]
  exact stems_spec (List.forall_mem_map.2 fun entry _ => isFree_callWish entry)

theorem isFree_events (plan : BindingPlan) :
    ((layout plan).events.map (·.stem)).Nodup ∧ ∀ stem ∈ (layout plan).events.map (·.stem), IsFree stem := by
  rw [(stems_events plan).1]
  exact stems_spec (List.forall_mem_map.2 fun entry _ => isStem_typeStem (Name.isLower_head_pascalCase entry.name))

/-- What a written module declares: the items of a descriptor, with distinct names that are all legal. -/
structure Declares (everyOverload : Bool) (descriptor : Descriptor) (layout : Layout) : Prop where
  covers : Covers everyOverload descriptor layout
  reads : Reads layout
  items : (((sections layout).flatMap declared).map Prod.snd).Nodup
  variants : (layout.calls.map (·.stem)).Nodup
  legalItems : ∀ name ∈ ((sections layout).flatMap declared).map Prod.snd, IsLegal name
  legalVariants : ∀ name ∈ layout.calls.map (·.stem), IsLegal name

/-- A module that was lowered from a descriptor has a call struct with its alias and its variant for each
declared function, or for the first of each name, and a struct for each declared event. Its items have
names of their own, so do its variants, and all of these names are legal. Nothing is declared in front of
its sections. -/
theorem module_items {everyOverload : Bool} {descriptor : Descriptor} (header : String)
    (lowered : BindingPlan.ofDescriptor everyOverload descriptor = .ok plan) :
    Declares everyOverload descriptor (layout plan) ∧ declared importTokens = [] ∧
      render header plan = "// " ++ header ++ "\n// Bindings for `" ++ descriptor.name ++ "`.\n\n" ++
        tokens importTokens ++ "\n" ++
          String.join ((sections (layout plan)).map fun list => "\n" ++ tokens list ++ "\n") := by
  obtain ⟨-, name, -⟩ := BindingPlan.ofDescriptor_eq_ok.1 lowered
  obtain ⟨nodupCalls, freeCalls⟩ := isFree_calls plan
  obtain ⟨nodupEvents, freeEvents⟩ := isFree_events plan
  have freeName : IsFree (typeStem (Name.pascalCase plan.name)) :=
    isStem_typeStem (Name.isLower_head_pascalCase plan.name)
  have named : "pub" ≠ (layout plan).enumName := ne_pub_of_last (ending_calls _) (by decide)
  refine ⟨⟨covers_layout lowered, reads_layout _ named, ?_, nodupCalls, ?_,
    fun stem member => (freeCalls stem member).1.isLegal (freeCalls stem member).2⟩, by decide +kernel, ?_⟩
  · exact names_sections plan ▸ nodup_itemNames nodupCalls nodupEvents _
  · exact names_sections plan ▸ isLegal_itemNames freeCalls freeEvents freeName
  · rw [← name]
    rfl

theorem module_items_gauge : ∃ plan, BindingPlan.ofDescriptor true BindingPlan.gauge = .ok plan ∧
    Declares true BindingPlan.gauge (layout plan) ∧
    (layout plan).calls.map (·.stem) = ["ClaimRewards0", "ClaimRewards1", "BalanceOf"] := by
  obtain ⟨plan, lowered⟩ : ∃ plan, BindingPlan.ofDescriptor true BindingPlan.gauge = .ok plan :=
    exists_of_isOk (by decide +kernel)
  have stems : ((BindingPlan.ofDescriptor true BindingPlan.gauge).toOption.map fun plan =>
      (layout plan).calls.map (·.stem)) = some ["ClaimRewards0", "ClaimRewards1", "BalanceOf"] := by decide +kernel
  rw [lowered] at stems
  exact ⟨plan, lowered, (module_items "" lowered).1, Option.some.inj stems⟩

end RustModule
end ContractBuild
