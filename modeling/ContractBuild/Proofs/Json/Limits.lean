import ContractBuild.Proofs.Json.RoundTrip

/-!
The limits of a reader. What was read from a text is nested no deeper than a reader allows and has no
natural number beyond a machine word, and such a value is read back whole when it is written.
-/
namespace ContractBuild.Json
open Text

mutual

def fits (room : Nat) : Json → Bool
  | natural n => n ≤ Numeral.wordMax
  | array items => 0 < room && areFit (room - 1) items
  | object members => 0 < room && memberFit (room - 1) members
  | _ => true

def areFit (room : Nat) : List Json → Bool
  | [] => true
  | item :: items => fits room item && areFit room items

def memberFit (room : Nat) : List (String × Json) → Bool
  | [] => true
  | (_, value) :: members => fits room value && memberFit room members

end

theorem areFit_iff {room : Nat} {items : List Json} :
    areFit room items = true ↔ ∀ item ∈ items, fits room item = true := by
  induction items with
  | nil => simp [areFit]
  | cons item items ih => simp [areFit, ih]

theorem memberFit_iff {room : Nat} {members : List (String × Json)} :
    memberFit room members = true ↔ ∀ member ∈ members, fits room member.2 = true := by
  induction members with
  | nil => simp [memberFit]
  | cons member members ih => simp [memberFit, ih]

@[simp]
theorem fits_array {room : Nat} {items : List Json} :
    fits room (array items) = true ↔ 0 < room ∧ ∀ item ∈ items, fits (room - 1) item = true := by
  rw [fits, Bool.and_eq_true, decide_eq_true_eq, areFit_iff]

@[simp]
theorem fits_object {room : Nat} {members : List (String × Json)} :
    fits room (object members) = true ↔ 0 < room ∧ ∀ member ∈ members, fits (room - 1) member.2 = true := by
  rw [fits, Bool.and_eq_true, decide_eq_true_eq, memberFit_iff]

@[simp]
theorem fits_string (room : Nat) (text : String) : fits room (string text) = true := by
  simp [fits]

@[simp]
theorem fits_bool (room : Nat) (value : Bool) : fits room (bool value) = true := by
  simp [fits]

mutual

theorem fits_mono : ∀ {value : Json} {room more : Nat}, room ≤ more → fits room value = true →
    fits more value = true
  | .array items, room, more => by
    intro less fit
    rw [fits, Bool.and_eq_true, decide_eq_true_eq] at fit ⊢
    exact ⟨Nat.lt_of_lt_of_le fit.1 less, areFit_mono (Nat.sub_le_sub_right less 1) fit.2⟩
  | .object members, room, more => by
    intro less fit
    rw [fits, Bool.and_eq_true, decide_eq_true_eq] at fit ⊢
    exact ⟨Nat.lt_of_lt_of_le fit.1 less, memberFit_mono (Nat.sub_le_sub_right less 1) fit.2⟩
  | .natural n, room, more => by
    intro _ fit
    rwa [fits] at fit ⊢
  | .null, _, _ | .bool _, _, _ | .decimal _, _, _ | .string _, _, _ | .unreadable, _, _ =>
    fun _ _ => by simp [fits]

theorem areFit_mono : ∀ {items : List Json} {room more : Nat}, room ≤ more → areFit room items = true →
    areFit more items = true
  | [], _, _ => fun _ _ => rfl
  | item :: items, room, more => by
    intro less fit
    rw [areFit, Bool.and_eq_true] at fit ⊢
    exact ⟨fits_mono less fit.1, areFit_mono less fit.2⟩

theorem memberFit_mono : ∀ {members : List (String × Json)} {room more : Nat}, room ≤ more →
    memberFit room members = true → memberFit more members = true
  | [], _, _ => fun _ _ => rfl
  | (key, value) :: members, room, more => by
    intro less fit
    rw [memberFit, Bool.and_eq_true] at fit ⊢
    exact ⟨fits_mono less fit.1, memberFit_mono less fit.2⟩

end

/-! Writing -/

mutual

/-- Nothing is lost of a value within the limits. -/
theorem clip_of_fits : ∀ {value : Json} {room : Nat}, fits room value = true → clip room value = value
  | .natural n, room => by
    intro fit
    rw [fits, decide_eq_true_eq] at fit
    rw [clip, naturalLiteral, Literal.toJson]
    dsimp only
    rw [Numeral.accumulate_digits, decide_eq_true fit]
    rfl
  | .array items, room => by
    intro fit
    rw [fits, Bool.and_eq_true, decide_eq_true_eq] at fit
    rw [clip, arrayIn, if_neg (Nat.ne_of_gt fit.1), clipItems_of_fit fit.2]
  | .object members, room => by
    intro fit
    rw [fits, Bool.and_eq_true, decide_eq_true_eq] at fit
    rw [clip, objectIn_keys, if_neg (Nat.ne_of_gt fit.1), clipMembers_of_fit fit.2]
  | .null, _ | .bool _, _ | .decimal _, _ | .string _, _ | .unreadable, _ => fun _ => by rw [clip] <;> simp

theorem clipItems_of_fit : ∀ {items : List Json} {room : Nat}, areFit room items = true →
    clipItems room items = items
  | [], _ => fun _ => rfl
  | item :: items, room => by
    intro fit
    rw [areFit, Bool.and_eq_true] at fit
    rw [clipItems, clip_of_fits fit.1, clipItems_of_fit fit.2]

theorem clipMembers_of_fit : ∀ {members : List (String × Json)} {room : Nat}, memberFit room members = true →
    clipMembers room members = members
  | [], _ => fun _ => rfl
  | (key, value) :: members, room => by
    intro fit
    rw [memberFit, Bool.and_eq_true] at fit
    rw [clipMembers, clip_of_fits fit.1, clipMembers_of_fit fit.2]

end

/-! Reading -/

theorem fits_toJson (room : Nat) (literal : Literal) (written : List Char) :
    fits room (literal.toJson written) = true := by
  rw [Literal.toJson]
  split
  · next word =>
    simp only [Bool.and_eq_true, decide_eq_true_eq] at word
    rw [fits, decide_eq_true_eq]
    exact word.2
  · split <;> simp [fits]

theorem fits_keyword? {room : Nat} {text rest : List Char} {value : Json}
    (read : keyword? text = some (value, rest)) : fits room value = true := by
  rw [keyword?] at read
  split at read <;> cases read <;> simp [fits]

theorem fits_arrayIn {room : Nat} {items : List Json} (fit : areFit (room - 1) items = true) :
    fits room (arrayIn room items) = true := by
  rw [arrayIn]
  split
  · simp [fits]
  · next deep =>
    rw [fits, fit, decide_eq_true (Nat.pos_of_ne_zero deep)]
    rfl

theorem fits_objectIn {room : Nat} {members : List (Option String × Json)}
    (fit : ∀ member ∈ members, fits (room - 1) member.2 = true) :
    fits room (objectIn room members) = true := by
  rw [objectIn]
  split
  · simp [fits]
  · next deep =>
    split
    · next named keys =>
      refine fits_object.2 ⟨Nat.pos_of_ne_zero deep, ?_⟩
      induction members generalizing named with
      | nil =>
        cases keys
        exact fun _ member => nomatch member
      | cons member members ih =>
        rw [List.mapM_cons] at keys
        obtain ⟨first, isFirst, keys⟩ := Option.bind_eq_some_iff.1 keys
        obtain ⟨others, isOthers, keys⟩ := Option.bind_eq_some_iff.1 keys
        cases keys
        obtain ⟨key, _, rfl⟩ := Option.map_eq_some_iff.1 isFirst
        intro other inside
        rcases List.mem_cons.1 inside with rfl | inside
        · exact fit _ List.mem_cons_self
        · exact ih (fun member inside => fit member (List.mem_cons_of_mem _ inside)) others isOthers other inside
    · simp [fits]

mutual

/-- What is read keeps to the room it was read in. -/
theorem fits_scanValue? : ∀ {fuel room : Nat} {text rest : List Char} {value : Json},
    scanValue? fuel room text = some (value, rest) → fits room value = true
  | 0, _, _, _, _ => fun read => nomatch read
  | fuel + 1, room, text, rest, value => by
    intro read
    rw [scanValue?.eq_def] at read
    dsimp only at read
    split at read
    · obtain ⟨⟨chars, _⟩, _, read⟩ := Option.bind_eq_some_iff.1 read
      cases read
      cases chars <;> simp [fits]
    · split at read
      · cases read
        exact fits_arrayIn rfl
      · obtain ⟨⟨items, _⟩, isItems, read⟩ := Option.bind_eq_some_iff.1 read
        cases read
        exact fits_arrayIn (areFit_scanItems? isItems)
    · split at read
      · cases read
        exact fits_objectIn fun _ member => nomatch member
      · obtain ⟨⟨members, _⟩, isMembers, read⟩ := Option.bind_eq_some_iff.1 read
        cases read
        exact fits_objectIn (fit_scanMembers? isMembers)
    · split at read
      · obtain ⟨⟨literal, _⟩, _, read⟩ := Option.bind_eq_some_iff.1 read
        cases read
        exact fits_toJson ..
      · exact fits_keyword? read
    · cases read

theorem areFit_scanItems? : ∀ {fuel room : Nat} {text rest : List Char} {items : List Json},
    scanItems? fuel room text = some (items, rest) → areFit room items = true
  | 0, _, _, _, _ => fun read => nomatch read
  | fuel + 1, room, text, rest, items => by
    intro read
    rw [scanItems?] at read
    obtain ⟨⟨item, after⟩, isItem, read⟩ := Option.bind_eq_some_iff.1 read
    have first := fits_scanValue? isItem
    dsimp only at read
    split at read
    · obtain ⟨⟨others, _⟩, isOthers, read⟩ := Option.bind_eq_some_iff.1 read
      cases read
      rw [areFit, first, areFit_scanItems? isOthers]
      rfl
    · cases read
      rw [areFit, first]
      rfl
    · cases read

theorem fit_scanMembers? : ∀ {fuel room : Nat} {text rest : List Char} {members : List (Option String × Json)},
    scanMembers? fuel room text = some (members, rest) → ∀ member ∈ members, fits room member.2 = true
  | 0, _, _, _, _ => fun read => nomatch read
  | fuel + 1, room, text, rest, members => by
    intro read
    rw [scanMembers?.eq_def] at read
    dsimp only at read
    split at read
    · obtain ⟨⟨key, after⟩, _, read⟩ := Option.bind_eq_some_iff.1 read
      dsimp only at read
      split at read
      · obtain ⟨⟨value, behind⟩, isValue, read⟩ := Option.bind_eq_some_iff.1 read
        have first := fits_scanValue? isValue
        dsimp only at read
        split at read
        · obtain ⟨⟨others, _⟩, isOthers, read⟩ := Option.bind_eq_some_iff.1 read
          cases read
          exact List.forall_mem_cons.2 ⟨first, fit_scanMembers? isOthers⟩
        · cases read
          exact List.forall_mem_singleton.2 first
        · cases read
      · cases read
    · cases read

end

theorem fits_scan? {text : String} {value : Json} (read : scan? text = some value) :
    fits depthLimit value = true := by
  obtain ⟨⟨scanned, rest⟩, isScanned, read⟩ := Option.bind_eq_some_iff.1 read
  rw [Option.ite_none_right_eq_some] at read
  cases read.2
  exact fits_scanValue? isScanned

theorem lastOfEach_sublist {α : Type} (members : List (String × α)) :
    (lastOfEach members).Sublist members := by
  induction members with
  | nil => exact .slnil
  | cons member members ih =>
    rw [lastOfEach]
    split
    · exact ih.cons _
    · exact ih.cons_cons _

mutual

theorem fits_lastWins : ∀ {value : Json} {room : Nat}, fits room value = true →
    fits room (lastWins value) = true
  | .array items, room => by
    intro fit
    rw [fits, Bool.and_eq_true] at fit
    rw [lastWins, fits, fit.1, areFit_lastWins fit.2]
    rfl
  | .object members, room => by
    intro fit
    rw [fits, Bool.and_eq_true, decide_eq_true_eq] at fit
    have all := memberFit_iff.1 (memberFit_lastWins fit.2)
    rw [lastWins, fits_object]
    exact ⟨fit.1, fun member inside => all member ((lastOfEach_sublist _).subset inside)⟩
  | .natural _, _ | .null, _ | .bool _, _ | .decimal _, _ | .string _, _ | .unreadable, _ => by
    intro fit
    rw [lastWins] <;> simp [fit]

theorem areFit_lastWins : ∀ {items : List Json} {room : Nat}, areFit room items = true →
    areFit room (itemsLastWin items) = true
  | [], _ => fun _ => rfl
  | item :: items, room => by
    intro fit
    rw [areFit, Bool.and_eq_true] at fit
    rw [itemsLastWin, areFit, fits_lastWins fit.1, areFit_lastWins fit.2]
    rfl

theorem memberFit_lastWins : ∀ {members : List (String × Json)} {room : Nat}, memberFit room members = true →
    memberFit room (membersLastWin members) = true
  | [], _ => fun _ => rfl
  | (key, value) :: members, room => by
    intro fit
    rw [memberFit, Bool.and_eq_true] at fit
    rw [membersLastWin, memberFit, fits_lastWins fit.1, memberFit_lastWins fit.2]
    rfl

end

theorem fits_read? {text : String} {value : Json} (read : read? text = some value) :
    fits depthLimit value = true := by
  obtain ⟨scanned, isScanned, rfl⟩ := Option.map_eq_some_iff.1 read
  exact fits_lastWins (fits_scan? (Option.filter_eq_some_iff.1 isScanned).1)

mutual

theorem isReadable_of_isData : ∀ {value : Json}, isData value = true → isReadable value = true
  | .array items => by
    intro data
    rw [isData] at data
    rw [isReadable, areReadable_of_areData data]
  | .object members => by
    intro data
    rw [isData] at data
    rw [isReadable, memberReadable_of_memberData data]
  | .decimal _ | .unreadable => by
    intro data
    simp [isData] at data
  | .natural _ | .null | .bool _ | .string _ => fun _ => by simp [isReadable]

theorem areReadable_of_areData : ∀ {items : List Json}, areData items = true → areReadable items = true
  | [] => fun _ => rfl
  | item :: items => by
    intro data
    rw [areData, Bool.and_eq_true] at data
    rw [areReadable, isReadable_of_isData data.1, areReadable_of_areData data.2]
    rfl

theorem memberReadable_of_memberData : ∀ {members : List (String × Json)}, memberData members = true →
    memberReadable members = true
  | [] => fun _ => rfl
  | (key, value) :: members => by
    intro data
    rw [memberData, Bool.and_eq_true] at data
    rw [memberReadable, isReadable_of_isData data.1, memberReadable_of_memberData data.2]
    rfl

end

/-- A value within the limits is read back whole, up to members that a later one of their key replaces. -/
theorem read?_write (spacing : Nat) {value : Json} (data : isData value = true)
    (fit : fits depthLimit value = true) (blanks : String) (blank : blanks.toList.all isSpace = true) :
    read? (value.write spacing ++ blanks) = some (lastWins value) := by
  rw [read?, scan?_write spacing data blanks blank, clip_of_fits fit,
    Option.filter_some_pos (isReadable_of_isData data), Option.map_some]

end ContractBuild.Json
