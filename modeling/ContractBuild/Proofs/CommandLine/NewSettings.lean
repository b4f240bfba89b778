import ContractBuild.CommandLine.Commands
import ContractBuild.Proofs.Yaml.FirstValue

/-!
The settings file of a new project, read again. The name is put into it as it is: it is read as it was given
only if it is a plain scalar of one line, or nothing at all.
-/
namespace ContractBuild

namespace Text

theorem toList_join (separator : String) (pieces : List String) :
    (join separator pieces).toList = joinWith separator.toList (pieces.map String.toList) := by
  induction pieces with
  | nil => simp [join, joinWith]
  | cons piece pieces ih =>
    cases pieces with
    | nil => simp [join, joinWith]
    | cons next pieces =>
      rw [join, String.intercalate_cons_cons, String.toList_append, String.toList_append]
      rw [join] at ih
      simp [joinWith, ih]

end Text

/-! Settings with another name -/

namespace Settings
open Yaml

variable {tag keyTag : Option String} {style : ScalarStyle} {value other : Yaml} {pairs : List (Yaml × Yaml)}
  {settings : Settings} {name : String}

theorem members?_cons {key : String} : members? (.mapping tag ((.scalar keyTag style key, value) :: pairs)) =
    (members? (.mapping tag pairs)).map ((key, value) :: ·) := by
  rw [members?, members?, List.mapM_cons]
  generalize List.mapM (m := Option) _ pairs = members
  cases members <;> rfl

theorem field?_cons_of_not_mem {key : String} {names : List String} {members : List (String × Yaml)}
    (isOther : key ∉ names) : field? ((key, value) :: members) names = field? members names := by
  simp [field?, isOther]

theorem defaulted?_cons {α : Type} {key : String} {names : List String} {members : List (String × Yaml)}
    (isOther : key ∉ names) (usual : α) (decode : Yaml → Option α) :
    defaulted? ((key, value) :: members) names usual decode = defaulted? members names usual decode := by
  simp only [defaulted?, field?_cons_of_not_mem isOther]

/-- The name of settings is read on its own. -/
theorem ofYaml?_named : ofYaml? (.mapping tag ((.scalar keyTag style "name", value) :: pairs)) =
    (asString? value).bind fun name =>
      (ofYaml? (.mapping tag ((.scalar keyTag style "name", .absent) :: pairs))).map ({ · with name }) := by
  have required : ∀ value members, required? (("name", value) :: members) ["name"] asString? =
      if members.all (·.1 ≠ "name") then asString? value else none := by
    intro value members
    rw [required?, field?, List.filter_cons_of_pos (by simp)]
    cases others : members.filter (·.1 ∈ ["name"]) with
    | nil =>
      have single : members.all (·.1 ≠ "name") = true := by simpa [List.filter_eq_nil_iff] using others
      rw [if_pos single]
      rfl
    | cons other rest =>
      have repeated : ¬ members.all (·.1 ≠ "name") = true := by
        have member : other ∈ members.filter (·.1 ∈ ["name"]) := others ▸ List.mem_cons_self
        intro single
        simp only [List.mem_filter, List.mem_singleton, decide_eq_true_eq] at member
        simpa [member.2] using List.all_eq_true.1 single other member.1
      rw [if_neg repeated]
      rfl
  unfold ofYaml?
  rw [members?_cons, members?_cons]
  rcases members? (.mapping tag pairs) with _ | members
  · simp
  · simp (disch := decide) only [Option.map_some, Option.bind_eq_bind, Option.bind_some, required, defaulted?_cons]
    split
    · cases asString? value with
      | none => simp
      | some name =>
        simp only [absent, asString?, Option.bind_some, Option.map_bind, Function.comp_def, Option.pure_def,
          Option.map_some]
    · simp

end Settings

/-! The tokens of a text -/

namespace Yaml
open Text Scanner

theorem tokens_of_printable {text : String} (printable : text.toList.all isStreamChar = true) :
    tokens text = (scanLoop (text.toList.length + 1) ⟨⟨text.toList, 0, 0, 0⟩, -1, [], [none], true, #[]⟩).map
      (·.tokens.toList) := by
  unfold tokens
  dsimp only
  rw [printable]
  rcases scanLoop _ _ with cause | scanner <;> rfl

theorem tokens_of_not_printable {text : String} (notPrintable : text.toList.all isStreamChar = false) :
    tokens text = .error .controlCharacter := by
  unfold tokens
  dsimp only
  rw [notPrintable]
  rfl

theorem skipComment_line {body rest : List Char} (whole : ∀ c ∈ body, isBreak c = false) (index line column : Nat) :
    (⟨'#' :: (body ++ '\n' :: rest), index, line, column⟩ : Cursor).skipComment =
      ⟨'\n' :: rest, index + (body.length + 1), line, column + (body.length + 1)⟩ := by
  have line : ('#' :: (body ++ '\n' :: rest)).takeWhile (fun c => !isBreak c) = '#' :: body := by
    rw [List.takeWhile_cons_of_pos (by decide),
      List.takeWhile_append_of_pos (fun c member => by rw [whole c member]; rfl),
      List.takeWhile_cons_of_neg (by decide), List.append_nil]
  simp only [Cursor.skipComment, Cursor.toLineEnd, Cursor.span, line]
  simp

end Yaml

namespace Command
open Text Yaml Yaml.Scanner

/-! The text of the file -/

def presetText : List Char :=
  joinWith ['\n'] (presetLines.map String.toList)

def leadText : List Char :=
  "# Kiln project configuration\nname:".toList

/-- What the scanner asks of the texts around the name: how they begin and end, which characters they are made of
and how long they are. -/
theorem around_name : (leadText = "# Kiln project configuration".toList ++ '\n' :: "name:".toList ∧
      "name: ".toList = "name:".toList ++ [' '] ∧ leadText.all isStreamChar = true ∧ leadText.length = 34) ∧
    presetText = "version".toList ++ ':' :: ' ' :: presetText.drop 9 ∧
      presetText.all (fun c => isStreamChar c && !isSpecial c) = true ∧ 59 ≤ presetText.length ∧
      presetText.head? = some 'v' ∧ endsWord presetText = false := by
  unfold leadText
  simp only [presetText, presetLines, List.map_cons, List.map_nil]
  -- each text is spelled out first: what the kernel would do to take it out of its bytes is quadratic
  repeat rw [String.toList_ofList]
  decide +kernel

theorem toList_initialSettings (name : String) :
    (initialSettings name).toList = leadText ++ ' ' :: (name.toList ++ '\n' :: presetText) := by
  obtain ⟨⟨lead, label, -, -⟩, -⟩ := around_name
  rw [initialSettings, toList_join, lead, List.map_cons, List.map_cons, String.toList_append, label]
  show "# Kiln project configuration".toList ++ ['\n'] ++
    ("name:".toList ++ [' '] ++ name.toList ++ ['\n'] ++ presetText) = _
  simp

theorem follows_name : Follows "version".toList presetText where
  begins := ⟨_, around_name.2.1⟩
  letters := List.all_eq_true.1 (by decide)
  filled := by decide
  bare c member := (Bool.and_eq_true_iff.1 (List.all_eq_true.1 around_name.2.2.1 c member)).2

/-! The tokens of the file -/

def nameTokens : List Token :=
  [.blockMappingStart, .key, .scalar .plain "name", .value]

/-- Behind the comment in its first line the text goes on with the label of the name. -/
theorem skipToToken_lead (text : List Char) :
    skipToToken ⟨⟨leadText ++ ' ' :: text, 0, 0, 0⟩, -1, [], [none], true, #[]⟩ =
      ⟨⟨"name:".toList ++ ' ' :: text, 29, 1, 0⟩, -1, [], [none], true, #[]⟩ := by
  have lead : leadText ++ ' ' :: text =
      '#' :: (" Kiln project configuration".toList ++ '\n' :: ("name:".toList ++ ' ' :: text)) := by
    unfold leadText
    repeat rw [String.toList_ofList]
    rfl
  have whole : " Kiln project configuration".toList.all (!isBreak ·) = true := by
    rw [String.toList_ofList]
    rfl
  have onward : ∀ tabs, ((Cursor.skipMark ⟨leadText ++ ' ' :: text, 0, 0, 0⟩).skip
      fun c => c = ' ' || (tabs && c = '\t')).skipComment = ⟨'\n' :: ("name:".toList ++ ' ' :: text), 28, 0, 28⟩ := by
    intro tabs
    rw [lead, Cursor.skipMark, if_neg (by simp), Cursor.skip, Cursor.span, List.takeWhile_cons_of_neg (by simp)]
    exact skipComment_line (fun c member => by simpa using List.all_eq_true.1 whole c member) 0 0 0
  rw [skipToToken, skipToTokenLoop]
  simp only [onward, isBreak_newline, if_true]
  have begins : "name:".toList ++ ' ' :: text = 'n' :: ("ame:".toList ++ ' ' :: text) := by
    repeat rw [String.toList_ofList]
    rfl
  rw [begins]
  exact skipToTokenLoop_word _ rfl (by simp [Cursor.nextLine]) (by simp [Cursor.nextLine])

def atColon (text : List Char) : Scanner :=
  ⟨⟨':' :: ' ' :: text, 33, 1, 4⟩, -1, [], [some ⟨false, 0, 29, 1, 0⟩], false, #[.scalar .plain "name"]⟩

theorem scanLoop_lead (fuel : Nat) (text : List Char) :
    scanLoop (fuel + 2) ⟨⟨leadText ++ ' ' :: text, 0, 0, 0⟩, -1, [], [none], true, #[]⟩ =
      scanLoop fuel ((atValue 0 5 (' ' :: text)).behind nameTokens.toArray 34 1) := by
  have word : step ⟨⟨leadText ++ ' ' :: text, 0, 0, 0⟩, -1, [], [none], true, #[]⟩ = .ok (false, atColon text) := by
    rw [step, skipToToken_lead]
    rfl
  have colon : step (atColon text) = .ok (false, (atValue 0 5 (' ' :: text)).behind nameTokens.toArray 34 1) := by
    rw [step, skipToToken, skipToTokenLoop_word _ rfl (by simp [atColon]) (by simp [atColon])]
    rfl
  calc
    _ = scanLoop (fuel + 1) (atColon text) := by
      rw [scanLoop_succ, word]
      rfl
    _ = _ := by
      rw [scanLoop_succ, colon]
      rfl

theorem printable_initialSettings (name : String) :
    (initialSettings name).toList.all isStreamChar = name.toList.all isStreamChar := by
  obtain ⟨⟨-, -, lead, -⟩, -, preset, -⟩ := around_name
  simp only [List.all_eq_true, Bool.and_eq_true] at preset
  have preset : presetText.all isStreamChar = true := List.all_eq_true.2 fun c member => (preset c member).1
  rw [toList_initialSettings, List.all_append, List.all_cons, List.all_append, List.all_cons, lead, preset]
  simp [isStreamChar]

-- The kernel works out every sum that begins with the length of a text it knows, so the name comes first here and
-- the length of the lines behind it is that of a variable.
theorem length_initialSettings {name : String} {more : Nat} (long : presetText.length = 59 + more) :
    (initialSettings name).toList.length + 1 = name.toList.length + more + 94 + 2 := by
  have length : ∀ lead preset : List Char, (lead ++ ' ' :: (name.toList ++ '\n' :: preset)).length =
      name.toList.length + preset.length + lead.length + 2 := by
    intro lead preset
    simp only [List.length_append, List.length_cons]
    omega
  rw [toList_initialSettings, length, long, around_name.1.2.2.2]
  omega

theorem tokens_initialSettings {name : String} {more : Nat} (long : presetText.length = 59 + more)
    (printable : name.toList.all isStreamChar = true) :
    Yaml.tokens (initialSettings name) =
      (scanLoop (name.toList.length + more + 94) (atValue 0 5 (' ' :: (name.toList ++ '\n' :: presetText)))).map
        (nameTokens ++ ·.tokens.toList) := by
  rw [tokens_of_printable ((printable_initialSettings name).trans printable), length_initialSettings long,
    toList_initialSettings, scanLoop_lead, scanLoop_behind]
  rcases scanLoop _ (atValue 0 5 _) with cause | scanner
  · rfl
  · show Except.ok (nameTokens.toArray ++ scanner.tokens).toList = .ok (nameTokens ++ scanner.tokens.toList)
    simp

/-! What is read from the file -/

def newSettings (name : String) : Settings where
  name
  version := "0.1.0"
  sources := "contracts"
  solidity := some ⟨"0.8.9", none, true, 200, none, []⟩
  vyper := some ⟨"0.3.1", none, true, 200, none, []⟩
  build := ⟨".kiln/cache", ".kiln/scratch", false, 4, none⟩
  interfaces := ⟨"abis", true, true, false, "Interface", [], 2⟩
  bindings := ⟨"bindings", .ethersV5, false, []⟩

def readsPreset (preset : List Char) (fuels : List Nat) : Bool :=
  match (atLine preset).steps 93 with
  | .ok (true, ended) => ended.tokens.size = 93 && fuels.all fun fuel =>
      match (NodeReader.blockPairs fuel).run ⟨ended.tokens.toList, [], NodeReader.defaultHandles⟩ with
      | .ok (pairs, ⟨[.streamEnd], _, _⟩) =>
        Settings.ofYaml? (.mapping none ((.scalar none .plain "name", .absent) :: pairs)) = some (newSettings "")
      | _ => false
  | _ => false

theorem readsPreset_eq_true : readsPreset presetText [394, 398] = true := by
  simp only [presetText, presetLines, List.map_cons, List.map_nil]
  repeat rw [String.toList_ofList]
  decide +kernel

/-- Lines that are read as they should be are scanned to the end, and whatever the name they give the settings. -/
theorem exists_of_readsPreset {preset : List Char} {fuels : List Nat} (reads : readsPreset preset fuels = true) :
    ∃ ended, (∀ fuel, scanLoop (93 + fuel) (atLine preset) = .ok ended) ∧
      ended.tokens.toList.length = 93 ∧ ∀ fuel ∈ fuels, ∃ pairs anchors handles,
        (NodeReader.blockPairs fuel).run ⟨ended.tokens.toList, [], NodeReader.defaultHandles⟩ =
          .ok (pairs, ⟨[.streamEnd], anchors, handles⟩) ∧
        ∀ value, Settings.ofYaml? (.mapping none ((.scalar none .plain "name", value) :: pairs)) =
          (asString? value).map newSettings := by
  unfold readsPreset at reads
  split at reads
  · next ended scanned =>
    simp only [Bool.and_eq_true, decide_eq_true_eq, List.all_eq_true] at reads
    refine ⟨ended, scanLoop_of_steps scanned, by simpa using reads.1, fun fuel member => ?_⟩
    have readHere := reads.2 fuel member
    split at readHere
    · next pairs anchors handles ran =>
      refine ⟨pairs, anchors, handles, ran, fun value => ?_⟩
      rw [Settings.ofYaml?_named, of_decide_eq_true readHere]
      cases asString? value <;> rfl
    · cases readHere
  · cases reads

theorem read_initialSettings {name : String} {list : List Token}
    (scanned : Yaml.tokens (initialSettings name) = .ok list) :
    Yaml.read (initialSettings name) = ((NodeReader.document (4 * list.length + 8)).run
      ⟨list, [], NodeReader.defaultHandles⟩).map (·.1) := by
  rw [Yaml.read, scanned]
  dsimp only
  cases (NodeReader.document (4 * list.length + 8)).run ⟨list, [], NodeReader.defaultHandles⟩ <;> rfl

/-- With the name left out the file is read as that of a project without a name. -/
theorem ofText?_unnamed : Settings.ofText? (initialSettings "") = some (newSettings "") := by
  obtain ⟨ended, scanned, size, reads⟩ := exists_of_readsPreset readsPreset_eq_true
  obtain ⟨pairs, anchors, handles, ran, read⟩ := reads 394 (by decide)
  obtain ⟨-, -, -, atLeast, head, starts⟩ := around_name
  obtain ⟨more, long⟩ := Nat.exists_eq_add_of_le atLeast
  have found : Yaml.tokens (initialSettings "") = .ok (nameTokens ++ ended.tokens.toList) := by
    have enough : more + 93 + 1 = 93 + (more + 1) := by omega
    rw [tokens_initialSettings long rfl, show "".toList = [] from rfl, List.nil_append, List.length_nil, Nat.zero_add,
      scanLoop_blank (more + 93) (by decide) starts (by simp [head]) (by simp [head]), enough, scanned]
    simp [Except.map, behind]
  have document : Yaml.read (initialSettings "") =
      .ok (.mapping none ((.scalar none .plain "name", .absent) :: pairs)) := by
    rw [read_initialSettings found, List.length_append, size]
    refine NodeReader.document_ok (NodeReader.run_nodeUnless_of_ends ?_) ran rfl
    -- the entry that is read next ends the value
    have first : ended.tokens.toList.head? = some .key ∨ ended.tokens.toList.head? = some .blockEnd :=
      NodeReader.blockPairs_ok ran
    show NodeReader.endsPart (ended.tokens.toList.headD .streamEnd) = true
    rw [List.headD_eq_head?_getD]
    rcases first with first | first <;> rw [first] <;> rfl
  rw [Settings.ofText?, document]
  exact read _

/-- A verbatim name is read as it was given. -/
theorem ofText?_verbatim {name : String} (verbatim : isVerbatim name.toList = true) :
    Settings.ofText? (initialSettings name) = some (newSettings name) := by
  obtain ⟨ended, scanned, size, reads⟩ := exists_of_readsPreset readsPreset_eq_true
  obtain ⟨pairs, anchors, handles, ran, read⟩ := reads 398 (by decide)
  obtain ⟨-, -, -, atLeast, -, starts⟩ := around_name
  obtain ⟨more, long⟩ := Nat.exists_eq_add_of_le atLeast
  simp only [isVerbatim, Bool.and_eq_true] at verbatim
  obtain ⟨⟨printable, head⟩, goesOn⟩ := verbatim
  have found : Yaml.tokens (initialSettings name) =
      .ok (nameTokens ++ .scalar .plain name :: ended.tokens.toList) := by
    have enough : name.toList.length + more + 93 = 93 + (name.toList.length + more) := by omega
    rw [tokens_initialSettings long printable,
      scanLoop_verbatim (name.toList.length + more + 93) (by decide) head goesOn starts, enough, scanned]
    simp [Except.map, behind]
  have document : Yaml.read (initialSettings name) =
      .ok (.mapping none ((.scalar none .plain "name", .scalar none .plain name) :: pairs)) := by
    rw [read_initialSettings found, List.length_append, List.length_cons, size]
    exact NodeReader.document_ok NodeReader.run_nodeUnless_word ran rfl
  rw [Settings.ofText?, document]
  exact read _

theorem tokens_ok {name : String} {list : List Token} (scanned : Yaml.tokens (initialSettings name) = .ok list) :
    name.toList.all isStreamChar = true ∧ ∃ fuel ended,
      scanLoop fuel (atValue 0 5 (' ' :: (name.toList ++ '\n' :: presetText))) = .ok ended ∧
        list = nameTokens ++ ended.tokens.toList := by
  cases printable : name.toList.all isStreamChar with
  | false =>
    rw [tokens_of_not_printable ((printable_initialSettings name).trans printable)] at scanned
    cases scanned
  | true =>
    obtain ⟨more, long⟩ := Nat.exists_eq_add_of_le around_name.2.2.2.1
    rw [tokens_initialSettings long printable] at scanned
    cases ran : scanLoop (name.toList.length + more + 94)
        (atValue 0 5 (' ' :: (name.toList ++ '\n' :: presetText))) with
    | error cause =>
      rw [ran] at scanned
      cases scanned
    | ok ended =>
      rw [ran] at scanned
      cases scanned
      exact ⟨rfl, _, ended, ran, rfl⟩

/-- The name that is read is the first token behind the colon. -/
theorem content_of_ofText? {name : String} {tokens : Array Token} {settings : Settings}
    (scanned : Yaml.tokens (initialSettings name) = .ok (nameTokens ++ tokens.toList))
    (read : Settings.ofText? (initialSettings name) = some settings) (filled : settings.name ≠ "") :
    ∃ style, content? tokens = some (.scalar style settings.name) := by
  rw [Settings.ofText?, read_initialSettings scanned] at read
  cases document : (NodeReader.document (4 * (nameTokens ++ tokens.toList).length + 8)).run
      ⟨nameTokens ++ tokens.toList, [], NodeReader.defaultHandles⟩ with
  | error cause =>
    rw [document] at read
    cases read
  | ok found =>
    obtain ⟨root, after⟩ := found
    obtain ⟨value, pairs, rfl, word⟩ := NodeReader.document_text_ok document
    rw [document] at read
    have named : Settings.ofYaml? (.mapping none ((.scalar none .plain "name", value) :: pairs)) = some settings := read
    rw [Settings.ofYaml?_named] at named
    obtain ⟨given, isString, others⟩ := Option.bind_eq_some_iff.1 named
    obtain ⟨unnamed, -, rfl⟩ := Option.map_eq_some_iff.1 others
    obtain ⟨lead, style, rest, properties, split⟩ := word given isString filled
    have here : tokens.toList = lead ++ .scalar style given :: rest := split
    refine ⟨style, ?_⟩
    rw [content?, here, List.find?_append, List.find?_eq_none.2 (by simpa using properties)]
    rfl

/-- No other name is read as it was given. -/
theorem verbatim_of_ofText? {name : String} {settings : Settings}
    (read : Settings.ofText? (initialSettings name) = some settings) (same : settings.name = name) :
    name = "" ∨ isVerbatim name.toList = true := by
  by_contra other
  obtain ⟨filled, notVerbatim⟩ := not_or.1 other
  cases scanned : Yaml.tokens (initialSettings name) with
  | error cause =>
    rw [Settings.ofText?, Yaml.read, scanned] at read
    cases read
  | ok list =>
    obtain ⟨printable, fuel, ended, ran, rfl⟩ := tokens_ok scanned
    have apart : "version".toList ≠ name.toList := fun same => notVerbatim (same ▸ by decide)
    have unread : ¬ (plainHead name.toList = true ∧ plainBody false name.toList = true) :=
      fun ⟨head, goesOn⟩ => notVerbatim (by simp [isVerbatim, printable, head, goesOn])
    have avoids := avoids_of_scanLoop follows_name apart unread ran
    rw [String.ofList_toList] at avoids
    obtain ⟨style, found⟩ := content_of_ofText? scanned read (same ▸ filled)
    exact avoids style (same ▸ found)

end Command
end ContractBuild
