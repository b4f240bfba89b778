import ContractBuild.Yaml.Reader
import ContractBuild.Yaml.Decode

/-!
What the reader makes of a document whose first line gives a name. The name is a string only if its token is
that string, with nothing in front of it but an anchor and a tag.
-/
namespace ContractBuild.Yaml.NodeReader

variable {α β : Type} {state after : ReadState} {tokens more : List Token} {handles : List (String × String)}

/-! Steps of the reader -/

theorem ok_bind {ε : Type} (found : α) (next : α → Except ε β) : (Except.ok found >>= next) = next found := rfl

theorem run_peek : peek.run state = .ok (state.tokens.headD .streamEnd, state) := rfl

theorem run_advance : advance.run state = .ok ((), { state with tokens := state.tokens.tail }) := rfl

theorem run_get : (get : NodeReader ReadState).run state = .ok (state, state) := rfl

theorem run_bind_ok {first : NodeReader α} {next : α → NodeReader β} {found : β} :
    (first >>= next).run state = .ok (found, after) ↔
      ∃ value middle, first.run state = .ok (value, middle) ∧ (next value).run middle = .ok (found, after) := by
  rw [StateT.run_bind]
  cases first.run state with
  | error cause => exact ⟨nofun, nofun⟩
  | ok found => exact ⟨fun ran => ⟨found.1, found.2, rfl, ran⟩, fun ⟨_, _, same, ran⟩ => by cases same; exact ran⟩

/-! The value of the first key -/

def finish (fuel : Nat) (root : Yaml) : NodeReader Yaml := do
  skipEnds fuel
  if (← peek) = .streamEnd then return root else refuse .manyDocuments

/-- A document that begins with a name is a mapping of that name to a value, and of what comes next. -/
theorem document_named (fuel : Nat) (name : String) :
    (document (fuel + 4)).run ⟨.blockMappingStart :: .key :: .scalar .plain name :: .value :: more, [], handles⟩ =
      (do
        let value ← nodeUnless (fuel + 1) endsPart true true
        let pairs ← blockPairs (fuel + 2)
        finish (fuel + 4) (.mapping none ((.scalar none .plain name, value) :: pairs)) : NodeReader Yaml).run
        ⟨more, [], handles⟩ := by
  simp [document, node, blockPairs, nodeUnless.eq_2, blockValue, run_peek, run_advance, ok_bind, StateT.run_bind,
    isDirective, properties, remember, endsPart, finish]

def isProperty : Token → Bool
  | .anchor _ | .tag .. => true
  | _ => false

theorem tagName_ok {handle suffix name : String} (ran : (tagName handle suffix).run state = .ok (name, after)) :
    after = state := by
  unfold tagName at ran
  split at ran
  · cases ran; rfl
  · rw [StateT.run_bind, run_get, ok_bind] at ran
    split at ran
    · cases ran; rfl
    · cases ran

theorem run_remember (anchor : Option String) (node : Yaml) :
    (remember anchor node).run state = .ok (node,
      { state with anchors := anchor.toList.map (·, node) ++ state.anchors }) := by
  cases anchor <;> rfl

theorem cons_of_headD {token : Token} (first : tokens.headD .streamEnd = token) (goesOn : token ≠ .streamEnd) :
    tokens = token :: tokens.tail := by
  cases tokens with
  | nil => exact absurd first.symm goesOn
  | cons head rest => rw [← first]; rfl

theorem properties_ok {found : Option String × Option String} (ran : properties.run state = .ok (found, after)) :
    ∃ lead, (∀ token ∈ lead, isProperty token = true) ∧ state.tokens = lead ++ after.tokens := by
  have tagged : ∀ {other : Option String} {handle suffix : String} {state : ReadState},
      (do return (other, some (← tagName handle suffix)) : NodeReader (Option String × Option String)).run state =
        .ok (found, after) → after = state := by
    intro other handle suffix state ran
    obtain ⟨name, middle, named, done⟩ := run_bind_ok.1 ran
    cases done
    exact tagName_ok named
  unfold properties at ran
  rw [StateT.run_bind, run_peek, ok_bind] at ran
  dsimp only at ran
  split at ran
  · next name first =>
    have here := cons_of_headD first nofun
    rw [StateT.run_bind, run_advance, ok_bind, StateT.run_bind, run_peek, ok_bind] at ran
    dsimp only at ran
    split at ran
    · next handle suffix second =>
      have behind := cons_of_headD second nofun
      rw [StateT.run_bind, run_advance, ok_bind] at ran
      refine ⟨[.anchor name, .tag handle suffix], by simp [isProperty], ?_⟩
      rw [tagged ran, here, behind]
      rfl
    · cases ran
      exact ⟨[.anchor name], by simp [isProperty], here⟩
  · next handle suffix first =>
    have here := cons_of_headD first nofun
    rw [StateT.run_bind, run_advance, ok_bind, StateT.run_bind, run_peek, ok_bind] at ran
    dsimp only at ran
    split at ran
    · next name second =>
      have behind := cons_of_headD second nofun
      rw [StateT.run_bind, run_advance, ok_bind] at ran
      refine ⟨[.tag handle suffix, .anchor name], by simp [isProperty], ?_⟩
      rw [tagged ran, here, behind]
      rfl
    · refine ⟨[.tag handle suffix], by simp [isProperty], ?_⟩
      rw [tagged ran, here]
      rfl
  · cases ran
    exact ⟨[], List.forall_mem_nil _, rfl⟩

section
variable {anchor tag : Option String} {value : Yaml} {text : String}

theorem no_text_of_collected {members : NodeReader α} {make : α → Yaml} (noText : ∀ found, asString? (make found) = none)
    (ran : (do remember anchor (make (← members)) : NodeReader Yaml).run state = .ok (value, after)) :
    asString? value = none := by
  obtain ⟨found, behind, -, ran⟩ := run_bind_ok.1 ran
  rw [run_remember] at ran
  cases ran
  exact noText found

theorem empty_of_bare (ran : (if (anchor.isSome || tag.isSome) = true then remember anchor (.scalar tag .plain "")
    else refuse .unexpectedToken : NodeReader Yaml).run state = .ok (value, after)) : asString? value = some "" := by
  split at ran
  · rw [run_remember] at ran
    cases ran
    rfl
  · cases ran

/-- A node that is a string has a token of its own with that string. -/
theorem node_text {fuel : Nat} {block indentless : Bool}
    (ran : (node fuel block indentless).run state = .ok (value, after)) (noAnchors : state.anchors = [])
    (reads : asString? value = some text) (filled : text ≠ "") :
    ∃ lead style, (∀ token ∈ lead, isProperty token = true) ∧
      state.tokens = lead ++ .scalar style text :: after.tokens := by
  cases fuel with
  | zero => cases ran
  | succ fuel =>
    unfold node at ran
    rw [StateT.run_bind, run_peek, ok_bind] at ran
    dsimp only at ran
    split at ran
    · rw [StateT.run_bind, run_advance, ok_bind, StateT.run_bind, run_get, ok_bind] at ran
      dsimp only at ran
      rw [noAnchors] at ran
      cases ran
    · obtain ⟨⟨anchor, tag⟩, middle, propertied, ran⟩ := run_bind_ok.1 ran
      obtain ⟨lead, properties, split⟩ := properties_ok propertied
      rw [StateT.run_bind, run_remember, ok_bind, StateT.run_bind, run_peek, ok_bind] at ran
      dsimp only at ran
      have notCollected : asString? value ≠ none := by rw [reads]; exact Option.some_ne_none _
      have notBare : asString? value ≠ some "" := by rw [reads]; exact mt Option.some.inj filled
      split at ran
      · next style found first =>
        rw [StateT.run_bind, run_advance, ok_bind, run_remember] at ran
        cases ran
        obtain rfl : found = text := Option.some.inj reads
        exact ⟨lead, style, properties, by rw [split, cons_of_headD first nofun]; rfl⟩
      · rw [StateT.run_bind, run_advance, ok_bind] at ran
        exact absurd (no_text_of_collected (fun _ => rfl) ran) notCollected
      · rw [StateT.run_bind, run_advance, ok_bind] at ran
        exact absurd (no_text_of_collected (fun _ => rfl) ran) notCollected
      · split at ran
        · exact absurd (no_text_of_collected (fun _ => rfl) ran) notCollected
        · exact absurd (empty_of_bare ran) notBare
      · split at ran
        · rw [StateT.run_bind, run_advance, ok_bind] at ran
          exact absurd (no_text_of_collected (fun _ => rfl) ran) notCollected
        · exact absurd (empty_of_bare ran) notBare
      · split at ran
        · rw [StateT.run_bind, run_advance, ok_bind] at ran
          exact absurd (no_text_of_collected (fun _ => rfl) ran) notCollected
        · exact absurd (empty_of_bare ran) notBare
      · exact absurd (empty_of_bare ran) notBare

end

theorem blockPairs_ok {fuel : Nat} {pairs : List (Yaml × Yaml)}
    (ran : (blockPairs (fuel + 1)).run state = .ok (pairs, after)) :
    state.tokens.head? = some .key ∨ state.tokens.head? = some .blockEnd := by
  unfold blockPairs at ran
  rw [StateT.run_bind, run_peek, ok_bind] at ran
  cases first : state.tokens with
  | nil => rw [first] at ran; cases ran
  | cons token rest =>
    rw [first] at ran
    cases token with
    | key => exact .inl rfl
    | blockEnd => exact .inr rfl
    | _ => cases ran

/-! The name of a document -/

theorem run_nodeUnless_of_ends {ends : Token → Bool} {fuel : Nat} {block indentless : Bool}
    (stops : ends (state.tokens.headD .streamEnd) = true) :
    (nodeUnless (fuel + 1) ends block indentless).run state = .ok (absent, state) := by
  rw [nodeUnless.eq_2, StateT.run_bind, run_peek, ok_bind]
  dsimp only
  rw [stops]
  rfl

theorem run_nodeUnless_word {fuel : Nat} {style : ScalarStyle} {text : String} :
    (nodeUnless (fuel + 2) endsPart true true).run ⟨.scalar style text :: more, [], handles⟩ =
      .ok (.scalar none style text, ⟨more, [], handles⟩) := rfl

/-- A document whose first value and whose further entries can be read up to the end is the mapping of them. -/
theorem document_ok {fuel : Nat} {name : String} {value : Yaml} {middle : ReadState} {pairs : List (Yaml × Yaml)}
    (valued : (nodeUnless (fuel + 1) endsPart true true).run ⟨more, [], handles⟩ = .ok (value, middle))
    (paired : (blockPairs (fuel + 2)).run middle = .ok (pairs, after)) (ended : after.tokens = [.streamEnd]) :
    ((document (fuel + 4)).run ⟨.blockMappingStart :: .key :: .scalar .plain name :: .value :: more, [], handles⟩).map
      (·.1) = .ok (.mapping none ((.scalar none .plain name, value) :: pairs)) := by
  obtain ⟨tokens, anchors, handles⟩ := after
  obtain rfl : tokens = [.streamEnd] := ended
  rw [document_named, StateT.run_bind, valued, ok_bind, StateT.run_bind, paired, ok_bind]
  rfl

/-- The other way around, a first string that is not empty is a word. -/
theorem document_text_ok {fuel : Nat} {name : String} {root : Yaml}
    (ran : (document (fuel + 4)).run
      ⟨.blockMappingStart :: .key :: .scalar .plain name :: .value :: more, [], handles⟩ = .ok (root, after)) :
    ∃ value pairs, root = .mapping none ((.scalar none .plain name, value) :: pairs) ∧
      ∀ text, asString? value = some text → text ≠ "" → ∃ lead style rest,
        (∀ token ∈ lead, isProperty token = true) ∧ more = lead ++ .scalar style text :: rest := by
  rw [document_named] at ran
  obtain ⟨value, middle, valued, ran⟩ := run_bind_ok.1 ran
  obtain ⟨pairs, behind, -, ran⟩ := run_bind_ok.1 ran
  obtain ⟨_, closed, -, ran⟩ := run_bind_ok.1 ran
  rw [StateT.run_bind, run_peek, ok_bind] at ran
  dsimp only at ran
  split at ran
  · cases ran
    refine ⟨value, pairs, rfl, fun text reads filled => ?_⟩
    rw [nodeUnless.eq_2, StateT.run_bind, run_peek, ok_bind] at valued
    dsimp only at valued
    split at valued
    · cases valued
      exact absurd (Option.some.inj reads).symm filled
    · obtain ⟨lead, style, properties, split⟩ := node_text valued rfl reads filled
      exact ⟨lead, style, middle.tokens, properties, split⟩
  · cases ran

end ContractBuild.Yaml.NodeReader
