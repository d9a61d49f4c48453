import LadderDiagram.Proofs.L5x.Content
import LadderDiagram.Proofs.List

/-!
# Listed routines

The routines of a document stand at the ends of paths through the values that the document is read
as, and the paths give their order.  The list of names has one name for each ladder routine among
them.  A routine is found again by a name that it bears itself.  A routine without a name is listed
under one that is made from its number, and there is nothing that this name finds.
-/

namespace LadderDiagram
namespace L5x

open Xml

/-! ### Paths to routines -/

/-- A routine in a value, at the end of a path of places; what is in a routine does not count. -/
inductive HasRoutine : Value → List Nat → Value → Prop
  | item {items : List Value} {place : Nat} {item routine : Value} {path : List Nat}
      (stands : items[place]? = some item) (has : HasRoutine item path routine) :
      HasRoutine (.list items) (place :: path) routine
  | field {fields : List (String × Value)} {place : Nat} {field : String × Value}
      {routine : Value} {path : List Nat} (stands : fields[place]? = some field)
      (other : ∀ items, field ≠ ("Routine", .list items))
      (has : HasRoutine field.2 path routine) :
      HasRoutine (.record fields) (place :: path) routine
  | own {fields : List (String × Value)} {place : Nat} {items : List Value} {index : Nat}
      {routine : Value} (stands : fields[place]? = some ("Routine", .list items))
      (isRoutine : items[index]? = some routine) :
      HasRoutine (.record fields) [place, index] routine

/-- What is at the end of some paths, in the order of the paths. -/
structure Lists {β : Type} (has : List Nat → β → Prop) (found : List (List Nat × β)) : Prop where
  inOrder : found.Pairwise fun first second => first.1 < second.1
  complete : ∀ path thing, (path, thing) ∈ found ↔ has path thing

/-- A ladder routine of a document, at the end of a path. -/
def IsLadderRoutine (document : String) (path : List Nat) (entry : Entry) : Prop :=
  ∃ nodes routine, readTree document.toList = .ok nodes ∧
    HasRoutine (.ofDocument isList nodes) path routine ∧ entry? routine = some entry

section Lists

variable {β γ : Type} {has : γ → List Nat → β → Prop}

/-- What is at the end of a path that enters a list of things at some place. -/
def HasAtPlace (has : γ → List Nat → β → Prop) (things : List γ) (path : List Nat) (goal : β) :
    Prop :=
  ∃ place rest thing, path = place :: rest ∧ things[place]? = some thing ∧ has thing rest goal

theorem lists_nil {none : List Nat → β → Prop} (isNone : ∀ path thing, ¬ none path thing) :
    Lists none [] :=
  ⟨.nil, fun path thing => ⟨fun member => absurd member List.not_mem_nil,
    fun holds => absurd holds (isNone path thing)⟩⟩

theorem Lists.congr {has other : List Nat → β → Prop} {found : List (List Nat × β)}
    (lists : Lists has found) (same : ∀ path thing, has path thing ↔ other path thing) :
    Lists other found :=
  ⟨lists.inOrder, fun path thing => (lists.complete path thing).trans (same path thing)⟩

/-- Of the things that are found, those may be kept that are read as something. -/
theorem Lists.filterMap {has : List Nat → β → Prop} {found : List (List Nat × β)}
    (lists : Lists has found) (read : β → Option γ) :
    ∃ kept, Lists (fun path goal => ∃ thing, has path thing ∧ read thing = some goal) kept ∧
      kept.map (·.2) = (found.map (·.2)).filterMap read := by
  refine ⟨found.filterMap fun one => (read one.2).map (one.1, ·), ⟨?_, ?_⟩, ?_⟩
  · refine lists.inOrder.filterMap _ fun first second earlier => ?_
    simp only [Option.map_eq_some_iff]
    rintro _ ⟨_, _, rfl⟩ _ ⟨_, _, rfl⟩
    exact earlier
  · intro path goal
    simp only [List.mem_filterMap, Option.map_eq_some_iff, Prod.mk.injEq]
    constructor
    · rintro ⟨⟨_, thing⟩, member, _, isGoal, rfl, rfl⟩
      exact ⟨thing, (lists.complete _ _).mp member, isGoal⟩
    · rintro ⟨thing, holds, isGoal⟩
      exact ⟨(path, thing), (lists.complete _ _).mpr holds, goal, isGoal, rfl, rfl⟩
  · rw [List.map_filterMap, List.filterMap_map]
    congr 1
    funext one
    simp [Option.map_map, Function.comp_def]

theorem hasAtPlace_append_singleton {things : List γ} {last : γ} {path : List Nat} {goal : β} :
    HasAtPlace has (things ++ [last]) path goal ↔ HasAtPlace has things path goal ∨
      ∃ rest, path = things.length :: rest ∧ has last rest goal := by
  constructor
  · rintro ⟨place, rest, thing, rfl, stands, holds⟩
    rcases Nat.lt_or_ge place things.length with before | behind
    · rw [List.getElem?_append_left before] at stands
      exact Or.inl ⟨place, rest, thing, rfl, stands, holds⟩
    · rw [List.getElem?_append_right behind, List.getElem?_singleton] at stands
      split at stands
      next isLast =>
        obtain rfl : place = things.length := by omega
        cases stands
        exact Or.inr ⟨rest, rfl, holds⟩
      next => cases stands
  · rintro (⟨place, rest, thing, rfl, stands, holds⟩ | ⟨rest, rfl, holds⟩)
    · have before := (List.getElem?_eq_some_iff.mp stands).1
      exact ⟨place, rest, thing, rfl, by rwa [List.getElem?_append_left before], holds⟩
    · exact ⟨things.length, rest, last, rfl, getElem?_append_length things [] last, holds⟩

/-- Each thing may be looked at before the next one is. -/
theorem exists_lists_hasAtPlace (things : List γ) {values : γ → List β}
    (each : ∀ thing ∈ things, ∃ found, Lists (has thing) found ∧
      found.map (·.2) = values thing) :
    ∃ found, Lists (HasAtPlace has things) found ∧
      found.map (·.2) = things.flatMap values := by
  induction things using List.reverseRecOn with
  | nil => exact ⟨[], lists_nil (by simp [HasAtPlace]), rfl⟩
  | append_singleton things last ih =>
      obtain ⟨front, frontLists, isFront⟩ := ih fun thing member =>
        each thing (List.mem_append_left _ member)
      obtain ⟨back, backLists, isBack⟩ := each last (by simp)
      have within {path : List Nat} {goal : β} (member : (path, goal) ∈ front) :
          ∃ place rest, path = place :: rest ∧ place < things.length := by
        obtain ⟨place, rest, _, rfl, stands, _⟩ := (frontLists.complete _ _).mp member
        exact ⟨place, rest, rfl, (List.getElem?_eq_some_iff.mp stands).1⟩
      refine ⟨front ++ back.map fun found => (things.length :: found.1, found.2), ⟨?_, ?_⟩, ?_⟩
      · refine List.pairwise_append.mpr ⟨frontLists.inOrder, ?_, ?_⟩
        · rw [List.pairwise_map]
          exact backLists.inOrder.imp fun earlier =>
            List.cons_lt_cons_iff.mpr (Or.inr ⟨rfl, earlier⟩)
        · rintro ⟨path, goal⟩ member other isOther
          obtain ⟨found, _, rfl⟩ := List.mem_map.mp isOther
          obtain ⟨place, rest, rfl, before⟩ := within member
          exact List.cons_lt_cons_iff.mpr (Or.inl before)
      · intro path goal
        rw [hasAtPlace_append_singleton, ← frontLists.complete, List.mem_append, List.mem_map]
        refine or_congr_right ⟨?_, ?_⟩
        · rintro ⟨⟨rest, thing⟩, member, same⟩
          cases same
          exact ⟨rest, rfl, (backLists.complete _ _).mp member⟩
        · rintro ⟨rest, rfl, holds⟩
          exact ⟨(rest, goal), (backLists.complete _ _).mpr holds, rfl⟩
      · rw [List.map_append, isFront, List.map_map, List.flatMap_append, List.flatMap_singleton,
          ← isBack]
        rfl

end Lists

/-! ### All routines of a value -/

/-- What is in a field: the routines themselves, or else those in its value. -/
def HasInField (field : String × Value) (path : List Nat) (routine : Value) : Prop :=
  (∃ items index, field = ("Routine", .list items) ∧ path = [index] ∧
      items[index]? = some routine) ∨
    (∀ items, field ≠ ("Routine", .list items)) ∧ HasRoutine field.2 path routine

theorem hasRoutine_list_iff {items : List Value} {path : List Nat} {routine : Value} :
    HasAtPlace HasRoutine items path routine ↔ HasRoutine (.list items) path routine := by
  constructor
  · rintro ⟨place, rest, item, rfl, stands, has⟩
    exact .item stands has
  · intro has
    cases has with
    | item stands has => exact ⟨_, _, _, rfl, stands, has⟩

theorem hasRoutine_record_iff {fields : List (String × Value)} {path : List Nat}
    {routine : Value} :
    HasAtPlace HasInField fields path routine ↔ HasRoutine (.record fields) path routine := by
  constructor
  · rintro ⟨place, rest, field, rfl, stands, ⟨items, index, rfl, rfl, isRoutine⟩ | ⟨other, has⟩⟩
    · exact .own stands isRoutine
    · exact .field stands other has
  · intro has
    cases has with
    | field stands other has => exact ⟨_, _, _, rfl, stands, Or.inr ⟨other, has⟩⟩
    | own stands isRoutine =>
        exact ⟨_, _, _, rfl, stands, Or.inl ⟨_, _, rfl, rfl, isRoutine⟩⟩

theorem routineValuesOfItems_eq (items : List Value) :
    routineValuesOfItems items = items.flatMap routineValues := by
  induction items with
  | nil => rfl
  | cons item rest ih => rw [routineValuesOfItems, ih, List.flatMap_cons]

theorem routineValuesOfFields_eq (fields : List (String × Value)) :
    routineValuesOfFields fields =
      fields.flatMap fun field => routineValuesOfField field.1 field.2 := by
  induction fields with
  | nil => rfl
  | cons field rest ih => rw [routineValuesOfFields_cons, ih, List.flatMap_cons]

theorem routineValuesOfField_of_other {field : String × Value}
    (other : ∀ items, field ≠ ("Routine", .list items)) :
    routineValuesOfField field.1 field.2 = routineValues field.2 := by
  obtain ⟨key, value⟩ := field
  cases value with
  | list items =>
      apply routineValuesOfField_of_ne
      rintro rfl
      exact other items rfl
  | scalar scalar => rfl
  | record fields => rfl

/-- The routines that are gathered from a value are those at the end of its paths, in order. -/
def AreGathered (value : Value) : Prop :=
  ∃ found, Lists (HasRoutine value) found ∧ found.map (·.2) = routineValues value

theorem areGathered_list {items : List Value} (each : ∀ item ∈ items, AreGathered item) :
    AreGathered (.list items) := by
  obtain ⟨found, lists, isFound⟩ := exists_lists_hasAtPlace items each
  refine ⟨found, lists.congr fun _ _ => hasRoutine_list_iff, ?_⟩
  rw [isFound, routineValues, routineValuesOfItems_eq]

/-- The routines under their own name are taken as they stand. -/
theorem exists_lists_own (items : List Value) :
    ∃ found, Lists (HasInField ("Routine", .list items)) found ∧ found.map (·.2) = items := by
  obtain ⟨found, lists, isFound⟩ := @exists_lists_hasAtPlace Value Value
    (fun item path routine => path = [] ∧ routine = item) items (fun item => [item])
    fun item _ => ⟨[([], item)], ⟨List.pairwise_singleton _ _, by simp⟩, rfl⟩
  refine ⟨found, lists.congr fun path routine => ⟨?_, ?_⟩, by simpa using isFound⟩
  · rintro ⟨index, _, _, rfl, stands, rfl, rfl⟩
    exact Or.inl ⟨items, index, rfl, rfl, stands⟩
  · rintro (⟨_, index, ⟨⟩, rfl, stands⟩ | ⟨other, _⟩)
    · exact ⟨index, [], routine, rfl, stands, rfl, rfl⟩
    · exact absurd rfl (other items)

theorem areGathered_record {fields : List (String × Value)}
    (each : ∀ field ∈ fields, AreGathered field.2) : AreGathered (.record fields) := by
  have inField (field : String × Value) (member : field ∈ fields) :
      ∃ found, Lists (HasInField field) found ∧
        found.map (·.2) = routineValuesOfField field.1 field.2 := by
    by_cases own : ∃ items, field = ("Routine", .list items)
    · obtain ⟨items, rfl⟩ := own
      exact exists_lists_own items
    · obtain ⟨found, lists, isFound⟩ := each field member
      have other := not_exists.mp own
      refine ⟨found, lists.congr fun path routine => ⟨fun has => Or.inr ⟨other, has⟩, ?_⟩, ?_⟩
      · rintro (⟨items, _, isOwn, _⟩ | ⟨_, has⟩)
        · exact absurd isOwn (other items)
        · exact has
      · rw [isFound, routineValuesOfField_of_other other]
  obtain ⟨found, lists, isFound⟩ := exists_lists_hasAtPlace fields inField
  refine ⟨found, lists.congr fun _ _ => hasRoutine_record_iff, ?_⟩
  rw [isFound, routineValues, routineValuesOfFields_eq]

mutual

theorem areGathered : ∀ value : Value, AreGathered value
  | .scalar scalar => ⟨[], lists_nil (by rintro path thing ⟨⟩), rfl⟩
  | .list items => areGathered_list (areGathered_items items)
  | .record fields => areGathered_record (areGathered_fields fields)

theorem areGathered_items : ∀ items : List Value, ∀ item ∈ items, AreGathered item
  | [] => fun _ member => absurd member List.not_mem_nil
  | item :: rest => List.forall_mem_cons.mpr ⟨areGathered item, areGathered_items rest⟩

theorem areGathered_fields :
    ∀ fields : List (String × Value), ∀ field ∈ fields, AreGathered field.2
  | [] => fun _ member => absurd member List.not_mem_nil
  | (_, value) :: rest => List.forall_mem_cons.mpr ⟨areGathered value, areGathered_fields rest⟩

end

/-! ### The ladder routines of a document -/

/-- A document that is read holds some ladder routines, in the order of their paths. -/
theorem exists_lists_entries {document : String} {list : List Entry}
    (reads : entries document = .ok list) :
    ∃ found, Lists (IsLadderRoutine document) found ∧ found.map (·.2) = list := by
  unfold entries at reads
  split at reads
  next => cases reads
  next =>
    split at reads
    next => cases reads
    next nodes isRead =>
      cases reads
      obtain ⟨found, lists, isFound⟩ := areGathered (.ofDocument isList nodes)
      obtain ⟨kept, isKept, areKept⟩ := lists.filterMap entry?
      refine ⟨kept, isKept.congr fun path entry => ⟨?_, ?_⟩, areKept.trans (by rw [isFound])⟩
      · rintro ⟨routine, has, isEntry⟩
        exact ⟨nodes, routine, isRead, has, isEntry⟩
      · rintro ⟨_, routine, isReadToo, has, isEntry⟩
        cases isRead.symm.trans isReadToo
        exact ⟨routine, has, isEntry⟩

/-- The name that is made for a routine without one, from its number. -/
def madeName (index : Nat) : String := "Routine" ++ toString index

/-- The name under which the ladder routine with a number is listed. -/
def Entry.listedName (entry : Entry) (index : Nat) : String := entry.name.getD (madeName index)

/--
What reading makes of the ladder routines that are listed.  A name that a routine bears gives this
routine, and one that has been made for a routine gives none.  Without a name the first routine is
read, and a document without one is refused.
-/
structure AreRead (document : String) (names : List String)
    (found : List (List Nat × Entry)) : Prop where
  routines : Lists (IsLadderRoutine document) found
  count : names.length = found.length
  named : ∀ (index : Nat) (path : List Nat) (own : String) (rungs : List RungSource),
    found[index]? = some (path, ⟨some own, rungs⟩) →
      names[index]? = some own ∧ readRoutine document (some own) = .ok ⟨some own, rungs⟩
  unnamed : ∀ (index : Nat) (path : List Nat) (rungs : List RungSource),
    found[index]? = some (path, ⟨none, rungs⟩) →
      names[index]? = some (madeName index) ∧
        readRoutine document (some (madeName index)) = .error (.unknownRoutine (madeName index))
  first : ∀ (path : List Nat) (entry : Entry), found[0]? = some (path, entry) →
    readRoutine document none = .ok ⟨entry.name, entry.rungs⟩
  none : found = [] → ∃ error : ReadError, readRoutine document none = .error error ∧
    error.isFormatError = true

section Listed

variable {names : List String} {list : List Entry} {index : Nat} {entry : Entry}
  (listed : ∀ index : Nat, names[index]? = list[index]?.map (·.listedName index))
include listed

theorem listed_of_named (stands : list[index]? = some entry) {own : String}
    (named : entry.name = some own) : names[index]? = some own := by
  rw [listed, stands, Option.map_some, Entry.listedName, named, Option.getD_some]

theorem listed_of_unnamed (stands : list[index]? = some entry) (unnamed : entry.name = none) :
    names[index]? = some (madeName index) := by
  rw [listed, stands, Option.map_some, Entry.listedName, unnamed, Option.getD_none]

variable (distinct : names.Nodup)
include distinct

/-- No routine bears the name under which another one is listed. -/
theorem eq_of_named {name : String} (isListed : names[index]? = some name) {place : Nat}
    (stands : list[place]? = some entry) (named : entry.name = some name) : place = index := by
  have isListedToo := listed_of_named listed stands named
  obtain ⟨within, _⟩ := List.getElem?_eq_some_iff.mp isListedToo
  exact (List.getElem?_inj within distinct).mp (isListedToo.trans isListed.symm)

/-- A routine is found by its name. -/
theorem find?_of_named (stands : list[index]? = some entry) {own : String}
    (named : entry.name = some own) : list.find? (·.name == some own) = some entry := by
  obtain ⟨bounded, isEntry⟩ := List.getElem?_eq_some_iff.mp stands
  refine List.find?_eq_some_iff_getElem.mpr
    ⟨beq_iff_eq.mpr named, index, bounded, isEntry, fun earlier before => ?_⟩
  rw [Bool.not_eq_true', beq_eq_false_iff_ne]
  intro namedToo
  have same := eq_of_named listed distinct (listed_of_named listed stands named)
    (List.getElem?_eq_getElem (Nat.lt_trans before bounded)) namedToo
  exact Nat.ne_of_lt before same

/-- Nothing is found by a name that has been made. -/
theorem find?_of_unnamed (stands : list[index]? = some entry) (unnamed : entry.name = none) :
    list.find? (·.name == some (madeName index)) = none := by
  refine List.find?_eq_none.mpr fun other member same => ?_
  have named := beq_iff_eq.mp same
  obtain ⟨place, standsToo⟩ := List.getElem?_of_mem member
  obtain rfl := eq_of_named listed distinct (listed_of_unnamed listed stands unnamed)
    standsToo named
  cases stands.symm.trans standsToo
  cases unnamed.symm.trans named

end Listed

section Reading

variable {document : String} {list : List Entry} (reads : entries document = .ok list)
include reads

theorem getElem?_routineNames {names : List String} (lists : routineNames document = .ok names)
    (index : Nat) : names[index]? = list[index]?.map (·.listedName index) := by
  rw [routineNames, reads] at lists
  cases lists
  exact List.getElem?_mapIdx

theorem readRoutine_of_find? {name : String} {entry : Entry}
    (found : list.find? (·.name == some name) = some entry) :
    readRoutine document (some name) = .ok ⟨entry.name, entry.rungs⟩ := by
  rw [readRoutine, reads, ok_bind]
  dsimp only
  rw [found]
  rfl

theorem readRoutine_of_find?_eq_none {name : String}
    (missing : list.find? (·.name == some name) = none) :
    readRoutine document (some name) = .error (.unknownRoutine name) := by
  rw [readRoutine, reads, ok_bind]
  dsimp only
  rw [missing]

theorem readRoutine_none :
    readRoutine document none =
      list[0]?.elim (.error .noRoutine) fun entry => .ok ⟨entry.name, entry.rungs⟩ := by
  rw [readRoutine, reads, ok_bind]
  cases list <;> rfl

end Reading

/-! ### A document with both kinds of routines -/

/-- A document with one routine that bears a name and another one that does not. -/
def sampleDocument : String :=
  "<Routines><Routine Name=\"Main\"/><Routine><RLLContent><Rung><Comment>" ++
    "<![CDATA[Seal in]]></Comment></Rung></RLLContent></Routine></Routines>"

theorem readTree_sampleDocument : readTree sampleDocument.toList =
    .ok [.element "Routines" [] [.element "Routine" [("Name", "Main")] [],
      commentedRoutine [.characters "Seal in"]]] := by
  have isPieces : pieces (Text.withLineFeeds sampleDocument.toList) =
      .opening ⟨"Routines", []⟩ :: .empty ⟨"Routine", [("Name", "Main".toList)]⟩ ::
        (commentedPieces (.characters "Seal in") ++ [.closing]) := by
    decide +kernel
  have isCount : countReferences 0 "Main".toList = .ok 0 := by decide +kernel
  have isText : decode "Main".toList = "Main".toList := decode_of_spells (spells_escape _)
  have isDecoded (opened : List OpenElement) :
      Builder.decodedAttributes ⟨[], opened, false, [], 0⟩ [("Name", "Main".toList)] =
        .ok ([("Name", "Main")], ⟨[], opened, false, [], 0⟩) := by
    rw [Builder.decodedAttributes, Builder.decoded, isCount, isText]
    change Except.ok ([("Name", String.ofList "Main".toList)], _) = _
    rw [String.ofList_toList]
  rw [readTree, isPieces]
  change ((Builder.decodedAttributes ⟨[], [⟨"Routines", [], []⟩], false, [], 0⟩
    [("Name", "Main".toList)] >>= _) >>= _).map _ = _
  rw [isDecoded]
  rfl

theorem check_sampleDocument : check? sampleDocument.toList = none := by decide +kernel

/-- The value of a routine that has a name and nothing else. -/
def namedRoutine (name : String) : Value := .record [(attributeKey "Name", .scalar (.text name))]

theorem entry_namedRoutine (name : String) :
    (Node.element "Routine" [("Name", name)] []).entry isList =
      some ("Routine", namedRoutine name) := by
  rw [entry_of_plain (by decide), heldValue, nodeEntries, gather_nil]
  rfl

theorem routineValues_sampleDocument (nodes : List Node) :
    routineValues (Value.ofDocument isList [.element "Routines" []
      [.element "Routine" [("Name", "Main")] [], commentedRoutine nodes]]) =
        [namedRoutine "Main", singleRoutine (commentedRung (heldValue [] nodes))] := by
  have areEntries : nodeEntries isList [.element "Routine" [("Name", "Main")] [],
      commentedRoutine nodes] = [namedRoutine "Main",
        singleRoutine (commentedRung (heldValue [] nodes))].map ("Routine", ·) := by
    rw [nodeEntries, nodeEntries, entry_namedRoutine, entry_commentedRoutine]
    rfl
  rw [Value.ofDocument, gather_element (by decide) (by decide), heldValue, areEntries,
    gather_of_forall_eq (by decide) (by simp)]
  rfl

theorem entries_sampleDocument : entries sampleDocument =
    .ok [⟨some "Main", []⟩, ⟨none, [⟨some "", some "Seal in"⟩]⟩] := by
  have isNamed : entry? (namedRoutine "Main") = some ⟨some "Main", []⟩ := rfl
  rw [entries, check_sampleDocument, readTree_sampleDocument]
  dsimp only
  rw [routineValues_sampleDocument, List.filterMap_cons, List.filterMap_cons, isNamed,
    entry?_singleRoutine, rung?_commentedRung, (heldValue_characters [] "Seal in").1]
  rfl

theorem routineNames_sampleDocument :
    routineNames sampleDocument = .ok ["Main", "Routine1"] := by
  rw [routineNames, entries_sampleDocument]
  rfl

/-! ### All listed routines -/

/--
Where the listed names are distinct, a routine that bears its name is read under it, with its
rungs, and nothing is read under a name that the list has made.
-/
theorem exists_areRead {document : String} {names : List String}
    (lists : routineNames document = .ok names) (distinct : names.Nodup) :
    ∃ found, AreRead document names found := by
  obtain ⟨list, reads⟩ : ∃ list, entries document = .ok list := by
    cases reads : entries document with
    | error error =>
        rw [routineNames, reads] at lists
        cases lists
    | ok list => exact ⟨list, rfl⟩
  obtain ⟨found, routines, isFound⟩ := exists_lists_entries reads
  have listed := getElem?_routineNames reads lists
  have stands {index : Nat} {path : List Nat} {entry : Entry}
      (isOne : found[index]? = some (path, entry)) : list[index]? = some entry := by
    rw [← isFound, List.getElem?_map, isOne]
    rfl
  refine ⟨found, routines, ?_, fun index path own rungs isOne => ?_,
    fun index path rungs isOne => ?_, fun path entry isFirst => ?_, ?_⟩
  · rw [routineNames, reads] at lists
    cases lists
    rw [← isFound, List.length_mapIdx, List.length_map]
  · exact ⟨listed_of_named listed (stands isOne) rfl,
      readRoutine_of_find? reads (find?_of_named listed distinct (stands isOne) rfl)⟩
  · exact ⟨listed_of_unnamed listed (stands isOne) rfl,
      readRoutine_of_find?_eq_none reads (find?_of_unnamed listed distinct (stands isOne) rfl)⟩
  · rw [readRoutine_none reads, stands isFirst]
    rfl
  · rintro rfl
    refine ⟨.noRoutine, ?_, rfl⟩
    rw [readRoutine_none reads, ← isFound]
    rfl

/-- One routine of the document is read under its name, and the other one cannot be. -/
theorem exists_areRead_of_sample :
    ∃ names, routineNames sampleDocument = .ok names ∧ names.Nodup ∧
      ∃ found, AreRead sampleDocument names found :=
  ⟨_, routineNames_sampleDocument, by decide,
    exists_areRead routineNames_sampleDocument (by decide)⟩

/-- The names that are listed are distinct, and by one of them no routine can be read. -/
theorem listed_name_unread :
    routineNames sampleDocument = .ok ["Main", "Routine1"] ∧ ["Main", "Routine1"].Nodup ∧
      readRoutine sampleDocument (some "Main") = .ok ⟨some "Main", []⟩ ∧
      readRoutine sampleDocument (some "Routine1") = .error (.unknownRoutine "Routine1") := by
  refine ⟨routineNames_sampleDocument, by decide, ?_, ?_⟩
  · rw [readRoutine, entries_sampleDocument]
    rfl
  · rw [readRoutine, entries_sampleDocument]
    rfl

end L5x
end LadderDiagram
