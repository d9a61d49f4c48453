import LadderDiagram.Proofs.L5x.Value
import LadderDiagram.Proofs.Xml.Site

/-!
# What is seen of an element

The routines of a document are read from the text that an element of a rung shows, and from
nothing else in that element.  Where the element is looked at at all, it is the comment or the text
of one rung of one routine, and an element that shows no text costs the document that routine.
-/

namespace LadderDiagram
namespace L5x

open Xml

/-! ### What follows a text -/

/-- The rung that is read from a comment, or from a text, as the rest of it is given. -/
inductive IsSource : String → (String → RungSource) → Prop
  | comment (text : Option String) :
      IsSource "Comment" fun shown => ⟨text, (some shown).filter (!·.isEmpty)⟩
  | text (comment : Option String) : IsSource "Text" fun shown => ⟨some shown, comment⟩

/-- The rungs of a routine, with one of them read from a text. -/
def IsListing (name : String) (make : String → List RungSource) : Prop :=
  ∃ above source below, IsSource name source ∧ make = fun shown => above ++ source shown :: below

/-- The routine that has such rungs. -/
def IsEntry (name : String) (make : String → Entry) : Prop :=
  ∃ routine rungs, IsListing name rungs ∧ make = fun shown => ⟨routine, rungs shown⟩

theorem IsSource.injective {name : String} {source : String → RungSource}
    (isSource : IsSource name source) : Function.Injective source := by
  intro first second same
  cases isSource with
  | text comment => exact Option.some.inj (RungSource.mk.inj same).1
  | comment text =>
      have sameComment := (RungSource.mk.inj same).2
      simp only [Option.filter_some] at sameComment
      by_cases noFirst : first = "" <;> by_cases noSecond : second = "" <;> simp_all

theorem IsListing.injective {name : String} {make : String → List RungSource}
    (isListing : IsListing name make) : Function.Injective make := by
  obtain ⟨above, source, below, isSource, rfl⟩ := isListing
  intro first second same
  exact isSource.injective (List.cons.inj (List.append_cancel_left same)).1

theorem IsEntry.injective {name : String} {make : String → Entry} (isEntry : IsEntry name make) :
    Function.Injective make := by
  obtain ⟨routine, rungs, isListing, rfl⟩ := isEntry
  intro first second same
  exact isListing.injective (Entry.mk.inj same).2

section Follows

variable {ι β γ : Type} {shown : ι → Option String}

/-- What is read is the same for all texts, or is made of each text and missing where it is. -/
def Follows (shown : ι → Option String) (made : (String → β) → Prop) (read : ι → Option β) : Prop :=
  (∃ same, ∀ index, read index = same) ∨
    ∃ make, made make ∧ ∀ index, read index = (shown index).map (make ∘ Text.trim)

/-- One of the things that are found follows the texts. -/
def FollowsAmong (shown : ι → Option String) (made : (String → β) → Prop)
    (found : ι → List β) : Prop :=
  (∃ same, ∀ index, found index = same) ∨
    ∃ first make last, made make ∧
      ∀ index, found index = first ++ ((shown index).map (make ∘ Text.trim)).toList ++ last

variable {made : (String → β) → Prop} {madeNext : (String → γ) → Prop} {read : ι → Option β}

theorem follows_of_same {same : Option β} (isSame : ∀ index, read index = same) :
    Follows shown made read :=
  .inl ⟨same, isSame⟩

theorem Follows.map (follows : Follows shown made read) {next : β → γ}
    (isNext : ∀ make, made make → madeNext (next ∘ make)) :
    Follows shown madeNext fun index => (read index).map next := by
  rcases follows with ⟨same, isSame⟩ | ⟨make, isMade, isRead⟩
  · exact .inl ⟨same.map next, fun index => congrArg _ (isSame index)⟩
  · refine .inr ⟨next ∘ make, isNext make isMade, fun index => ?_⟩
    simp only [isRead, Option.map_map, Function.comp_assoc]

theorem Follows.among (follows : Follows shown made read) (first last : List β) :
    FollowsAmong shown made fun index => first ++ (read index).toList ++ last := by
  rcases follows with ⟨same, isSame⟩ | ⟨make, isMade, isRead⟩
  · exact .inl ⟨first ++ same.toList ++ last, fun index => by simp only [isSame]⟩
  · exact .inr ⟨first, make, last, isMade, fun index => by simp only [isRead]⟩

theorem FollowsAmong.append {found : ι → List β} (follows : FollowsAmong shown made found)
    (first last : List β) : FollowsAmong shown made fun index => first ++ found index ++ last := by
  rcases follows with ⟨same, isSame⟩ | ⟨left, make, right, isMade, isFound⟩
  · exact .inl ⟨first ++ same ++ last, fun index => by simp only [isSame]⟩
  · exact .inr ⟨first ++ left, make, right ++ last, isMade, fun index => by
      simp only [isFound, List.append_assoc]⟩

end Follows

/-! ### What is seen of an element -/

section Seen

variable {ι : Type} {name : String} {shown : ι → Option String}

/-- What is read from the values of an element, wherever it stands. -/
structure IsSeen (name : String) (shown : ι → Option String) (key : String)
    (value : ι → Value) : Prop where
  text : (∃ same, ∀ index, elementText? (value index) = same) ∨
    key = name ∧ ∀ index, elementText? (value index) = shown index
  rung : key = "Rung" → Follows shown (IsSource name) fun index => rung? (value index)
  content : key = "RLLContent" → Follows shown (IsListing name) fun index =>
    rungs? (.record [("RLLContent", value index)])
  routine : key = "Routine" → Follows shown (IsEntry name) fun index => entry? (value index)
  found : FollowsAmong shown (IsEntry name) fun index =>
    (routineValues (value index)).filterMap entry?
  solid : key = name ∨ ∀ index, ∃ fields, value index = .record fields

theorem ne_of_named (named : name = "Comment" ∨ name = "Text") {key : String}
    (other : key ∉ ["Comment", "Text"]) : key ≠ name := by
  rintro rfl
  exact other (by simpa using named)

/-- The element of a rung that shows the texts. -/
theorem isSeen_site (named : name = "Comment" ∨ name = "Text") {value : ι → Value}
    (shows : ∀ index, elementText? (value index) = shown index)
    (leaf : ∀ index, routineValues (value index) = []) : IsSeen name shown name value where
  text := .inr ⟨rfl, shows⟩
  rung isKey := absurd isKey.symm (ne_of_named named (by decide))
  content isKey := absurd isKey.symm (ne_of_named named (by decide))
  routine isKey := absurd isKey.symm (ne_of_named named (by decide))
  found := .inl ⟨[], fun index => congrArg (List.filterMap entry?) (leaf index)⟩
  solid := .inl rfl

/-- No attribute is found under a name that an element has. -/
theorem attributeKey_ne (named : name = "Comment" ∨ name = "Text") (own : String) :
    attributeKey own ≠ name := by
  intro same
  have first := congrArg (·.toList.head?) same
  rcases named with rfl | rfl <;> simp [attributeKey] at first

section Around

variable {key : String} {value item : ι → Value} {fields : ι → List (String × Value)}
  (named : name = "Comment" ∨ name = "Text") (seen : IsSeen name shown key value)
  (isItem : IsItem isList key value item) (around : AreAround key item fields)

include named seen isItem

omit named in
/-- What no element of the rung's names holds is no scalar where it varies. -/
theorem item_ne_scalar (other : key ≠ name) (index : ι) (scalar : Xml.Scalar) :
    item index ≠ .scalar scalar := by
  rcases isItem with ⟨_, rfl⟩ | ⟨before, after, rfl⟩
  · obtain ⟨inner, isInner⟩ := seen.solid.resolve_left other index
    rw [isInner]
    exact Value.noConfusion
  · exact Value.noConfusion

include around

theorem exists_attribute?_eq (own : String) :
    ∃ same, ∀ index, attribute? (.record (fields index)) own = same := by
  unfold attribute?
  rcases around.field? (attributeKey own) with ⟨same, isSame⟩ | ⟨isKey, isField⟩
  · simp only [isSame]
    exact ⟨_, fun _ => rfl⟩
  · refine ⟨none, fun index => ?_⟩
    have other := item_ne_scalar seen isItem (isKey ▸ attributeKey_ne named own) index
    rw [isField]
    split
    next none => cases none
    next text isText => exact absurd (Option.some.inj isText) (other _)
    next => rfl

theorem exists_elementText?_eq :
    ∃ same, ∀ index, elementText? (.record (fields index)) = same := by
  unfold elementText?
  dsimp only
  rcases around.field? sectionKey with ⟨same, isSame⟩ | ⟨isKey, isField⟩
  · simp only [isSame]
    exact ⟨_, fun _ => rfl⟩
  · refine ⟨none, fun index => ?_⟩
    have other := item_ne_scalar seen isItem
      (isKey ▸ ne_of_named named (by decide)) index
    rw [isField, Option.bind_some]
    unfold plainText?
    split
    next text isText => exact absurd isText (other _)
    next number isNumber => exact absurd isNumber (other _)
    next => rfl

omit named in
theorem fieldText?_cases (own : String) :
    (∃ same, ∀ index, fieldText? (.record (fields index)) own = same) ∨
      own = name ∧ ∀ index, fieldText? (.record (fields index)) own = (shown index).map some := by
  unfold fieldText?
  rcases around.field? own with ⟨same, isSame⟩ | ⟨isKey, isField⟩
  · simp only [isSame]
    exact .inl ⟨_, fun _ => rfl⟩
  · simp only [isField]
    rcases isItem with ⟨_, rfl⟩ | ⟨before, after, rfl⟩
    · rcases seen.text with ⟨same, isSame⟩ | ⟨isName, shows⟩
      · exact .inl ⟨same.map some, fun index => by rw [isSame]⟩
      · exact .inr ⟨isKey.trans isName, fun index => by rw [shows]⟩
    · exact .inl ⟨none, fun _ => rfl⟩

/-- A rung follows the text of an element among its children. -/
theorem follows_rung? :
    Follows shown (IsSource name) fun index => rung? (.record (fields index)) := by
  obtain ⟨number, isNumber⟩ := exists_attribute?_eq named seen isItem around "Number"
  obtain ⟨kind, isKind⟩ := exists_attribute?_eq named seen isItem around "Type"
  simp only [rung?_record, isNumber, isKind]
  cases number with
  | none => exact follows_of_same fun _ => rfl
  | some _ =>
  cases kind with
  | none => exact follows_of_same fun _ => rfl
  | some _ =>
  simp only [Option.bind_some]
  rcases fieldText?_cases seen isItem around "Comment" with
    ⟨comment?, isComment⟩ | ⟨rfl, isComment⟩
  · simp only [isComment]
    cases comment? with
    | none => exact follows_of_same fun _ => rfl
    | some comment =>
        simp only [Option.bind_some]
        rcases fieldText?_cases seen isItem around "Text" with ⟨text?, isText⟩ | ⟨rfl, isText⟩
        · exact follows_of_same fun index => congrArg _ (isText index)
        · refine .inr ⟨_, .text ((comment.map Text.trim).filter (!·.isEmpty)), fun index => ?_⟩
          simp only [isText, Option.map_map]
          rfl
  · obtain ⟨text?, isText⟩ :=
      (fieldText?_cases seen isItem around "Text").resolve_right fun other =>
        absurd other.1 (by decide)
    simp only [isComment, isText]
    cases text? with
    | none =>
        refine .inl ⟨none, fun index => ?_⟩
        dsimp only
        cases shown index <;> rfl
    | some text =>
        refine .inr ⟨_, .comment (some (Text.trim (text.getD ""))), fun index => ?_⟩
        dsimp only
        cases shown index <;> rfl

end Around

/-- The rungs of a routine follow the text of an element in one of them. -/
theorem follows_mapM {value : ι → Value} (before after : List Value)
    (follows : Follows shown (IsSource name) fun index => rung? (value index)) :
    Follows shown (IsListing name) fun index =>
      (before ++ value index :: after).mapM rung? := by
  have parts (index : ι) : (before ++ value index :: after).mapM rung? =
      (before.mapM rung?).bind fun above => (after.mapM rung?).bind fun below =>
        (rung? (value index)).map fun own => above ++ own :: below := by
    rw [List.mapM_append, List.mapM_cons]
    cases before.mapM rung? with
    | none => rfl
    | some above =>
    cases rung? (value index) with
    | none => cases after.mapM rung? <;> rfl
    | some own => cases after.mapM rung? <;> rfl
  simp only [parts]
  cases before.mapM rung? with
  | none => exact follows_of_same fun _ => rfl
  | some above =>
  cases after.mapM rung? with
  | none => exact follows_of_same fun _ => rfl
  | some below =>
      exact follows.map fun source isSource => ⟨above, source, below, isSource, rfl⟩

section Around

variable {key : String} {value item : ι → Value} {fields : ι → List (String × Value)}
  (named : name = "Comment" ∨ name = "Text") (seen : IsSeen name shown key value)
  (isItem : IsItem isList key value item) (around : AreAround key item fields)

theorem rungs?_congr {first second : Value}
    (same : first.field? "RLLContent" = second.field? "RLLContent") :
    rungs? first = rungs? second := by
  rw [rungs?, rungs?, same]

theorem field?_single (own : String) (value : Value) :
    (Value.record [(own, value)]).field? own = some value := by
  rw [field?_cons, if_pos (beq_self_eq_true own)]
  rfl

/-- The routines that are found under a name. -/
def routineValuesOfField (key : String) : Value → List Value
  | .list items => if key == "Routine" then items else routineValuesOfItems items
  | value => routineValues value

theorem routineValuesOfField_of_ne {key : String} (other : key ≠ "Routine") (value : Value) :
    routineValuesOfField key value = routineValues value := by
  cases value with
  | list items => exact if_neg (by simpa using other)
  | scalar | record => rfl

theorem routineValuesOfFields_cons (key : String) (value : Value)
    (rest : List (String × Value)) :
    routineValuesOfFields ((key, value) :: rest) =
      routineValuesOfField key value ++ routineValuesOfFields rest := by
  cases value <;> rfl

theorem routineValuesOfFields_append (first second : List (String × Value)) :
    routineValuesOfFields (first ++ second) =
      routineValuesOfFields first ++ routineValuesOfFields second := by
  induction first with
  | nil => rfl
  | cons field rest ih =>
      rw [List.cons_append, routineValuesOfFields_cons, routineValuesOfFields_cons, ih,
        List.append_assoc]

theorem routineValuesOfItems_append (first second : List Value) :
    routineValuesOfItems (first ++ second) =
      routineValuesOfItems first ++ routineValuesOfItems second := by
  induction first with
  | nil => rfl
  | cons item rest ih =>
      rw [List.cons_append, routineValuesOfItems, routineValuesOfItems, ih, List.append_assoc]

include seen isItem around

/-- The content of a routine follows the text of an element in it. -/
theorem follows_content : Follows shown (IsListing name) fun index =>
    rungs? (.record [("RLLContent", .record (fields index))]) := by
  unfold rungs?
  simp only [field?_single]
  rcases around.field? "Rung" with ⟨same, isSame⟩ | ⟨rfl, isField⟩
  · simp only [isSame]
    exact follows_of_same fun _ => rfl
  · rcases isItem with ⟨notList, _⟩ | ⟨before, after, rfl⟩
    · cases notList
    · simp only [isField]
      exact follows_mapM before after (seen.rung rfl)

theorem follows_rungs? : Follows shown (IsListing name) fun index =>
    rungs? (.record (fields index)) := by
  rcases around.field? "RLLContent" with ⟨same, isSame⟩ | ⟨rfl, isField⟩
  · unfold rungs?
    simp only [isSame]
    exact follows_of_same fun _ => rfl
  · rcases isItem with ⟨_, rfl⟩ | ⟨before, after, rfl⟩
    · have content := seen.content rfl
      have same (index : ι) := rungs?_congr
        ((isField index).trans (field?_single "RLLContent" (item index)).symm)
      simpa only [same] using content
    · unfold rungs?
      simp only [isField]
      exact follows_of_same fun _ => rfl

include named

/-- A routine follows the text of an element in it. -/
theorem follows_entry? : Follows shown (IsEntry name) fun index =>
    entry? (.record (fields index)) := by
  obtain ⟨own?, isName⟩ := exists_attribute?_eq named seen isItem around "Name"
  obtain ⟨kind?, isKind⟩ := exists_attribute?_eq named seen isItem around "Type"
  simp only [entry?_record, isName, isKind]
  cases own? with
  | none => exact follows_of_same fun _ => rfl
  | some own =>
  cases kind? with
  | none => exact follows_of_same fun _ => rfl
  | some kind =>
  simp only [Option.bind_some]
  split
  · exact (follows_rungs? seen isItem around).map
      fun rungs isListing => ⟨own, rungs, isListing, rfl⟩
  · exact follows_of_same fun _ => rfl

omit named in
/-- What is found in a record follows the text of an element in it. -/
theorem follows_found : FollowsAmong shown (IsEntry name) fun index =>
    (routineValues (.record (fields index))).filterMap entry? := by
  rcases around with ⟨same, isSame⟩ | ⟨front, back, isAround⟩
  · simp only [isSame]
    exact .inl ⟨_, fun _ => rfl⟩
  have parts (index : ι) : (routineValues (.record (fields index))).filterMap entry? =
      (routineValuesOfFields front).filterMap entry? ++
        (routineValuesOfField key (item index)).filterMap entry? ++
          (routineValuesOfFields back).filterMap entry? := by
    rw [isAround, routineValues, routineValuesOfFields_append, routineValuesOfFields_cons,
      List.filterMap_append, List.filterMap_append, List.append_assoc]
  simp only [parts]
  apply FollowsAmong.append
  rcases isItem with ⟨notList, rfl⟩ | ⟨before, after, rfl⟩
  · have other : key ≠ "Routine" := by
      rintro rfl
      cases notList
    simp only [routineValuesOfField_of_ne other]
    exact seen.found
  · by_cases isRoutine : key = "Routine"
    · have items (index : ι) :
          (routineValuesOfField key (.list (before ++ value index :: after))).filterMap entry? =
            before.filterMap entry? ++ ( entry? (value index)).toList ++
              after.filterMap entry? := by
        rw [routineValuesOfField, if_pos (beq_iff_eq.mpr isRoutine), List.filterMap_append,
          List.filterMap_cons, List.append_assoc]
        cases entry? (value index) <;> rfl
      simp only [items]
      exact (seen.routine isRoutine).among _ _
    · have items (index : ι) :
          (routineValuesOfField key (.list (before ++ value index :: after))).filterMap entry? =
            (routineValuesOfItems before).filterMap entry? ++
              (routineValues (value index)).filterMap entry? ++
                (routineValuesOfItems after).filterMap entry? := by
        rw [routineValuesOfField_of_ne isRoutine, routineValues, routineValuesOfItems_append,
          routineValuesOfItems, List.filterMap_append, List.filterMap_append, List.append_assoc]
      simp only [items]
      exact seen.found.append _ _

include named

/-- An element around another is seen through it. -/
theorem isSeen_record (own : String) :
    IsSeen name shown own fun index => .record (fields index) where
  text := .inl (exists_elementText?_eq named seen isItem around)
  rung _ := follows_rung? named seen isItem around
  content _ := follows_content seen isItem around
  routine _ := follows_entry? named seen isItem around
  found := follows_found seen isItem around
  solid := .inr fun _ => ⟨_, rfl⟩

end Around

/-- What the named value of a node lets see: the same for all texts, or what follows them. -/
def IsEntrySeen (name : String) (shown : ι → Option String)
    (entry : ι → Option (String × Value)) : Prop :=
  (∃ same, ∀ index, entry index = same) ∨
    ∃ key value, IsSeen name shown key value ∧ ∀ index, entry index = some (key, value index)

/-- The fields of a list of nodes, one of which follows the texts. -/
theorem exists_areAround_nodes {node : ι → Node}
    (seen : IsEntrySeen name shown fun index => (node index).entry isList)
    (left right : List Node) :
    (∃ same, ∀ index,
      gather isList (nodeEntries isList (left ++ node index :: right)) = same) ∨
    ∃ key value item, IsSeen name shown key value ∧ IsItem isList key value item ∧
      AreAround key item fun index =>
        gather isList (nodeEntries isList (left ++ node index :: right)) := by
  have parts (index : ι) : nodeEntries isList (left ++ node index :: right) =
      nodeEntries isList left ++
        (((node index).entry isList).toList ++ nodeEntries isList right) := by
    rw [nodeEntries_append, nodeEntries]
  rcases seen with ⟨same, isSame⟩ | ⟨key, value, isSeen, isEntry⟩
  · simp only [parts, isSame]
    exact .inl ⟨_, fun _ => rfl⟩
  · simp only [parts, isEntry]
    obtain ⟨item, isItem, around⟩ := exists_areAround_gather isList key value
      (nodeEntries isList left) (nodeEntries isList right)
    exact .inr ⟨key, value, item, isSeen, isItem, around⟩

/-- Whatever elements are around a node, what is seen of it is seen through them. -/
theorem isEntrySeen_around (named : name = "Comment" ∨ name = "Text") {node : ι → Node}
    (seen : IsEntrySeen name shown fun index => (node index).entry isList)
    (silent : ∀ index, (node index).text? = none) {around : Node → Node}
    (encloses : Encloses around) :
    IsEntrySeen name shown (fun index => (around (node index)).entry isList) ∧
      ∃ text?, ∀ index, (around (node index)).text? = text? := by
  induction encloses with
  | site => exact ⟨seen, none, silent⟩
  | @within around inner own attributes left right ih =>
      obtain ⟨seenInner, text?, isText⟩ := ih
      refine ⟨?_, (Node.element own attributes []).text?, fun _ => rfl⟩
      have texts (index : ι) : (left ++ around (node index) :: right).filterMap Node.text? =
          left.filterMap Node.text? ++ (text?.toList ++ right.filterMap Node.text?) := by
        rw [List.filterMap_append, List.filterMap_cons, isText]
        cases text? <;> rfl
      simp only [Node.entry, texts]
      split
      · exact .inl ⟨none, fun _ => rfl⟩
      rcases exists_areAround_nodes seenInner left right with
        ⟨same, isSame⟩ | ⟨key, value, item, isSeen, isItem, isAround⟩
      · simp only [isSame]
        exact .inl ⟨_, fun _ => rfl⟩
      · rcases isAround.ofParts
          (filled (joinTexts (left.filterMap Node.text? ++
            (text?.toList ++ right.filterMap Node.text?)))) attributes with
          ⟨same, isSame⟩ | ⟨fields, isAroundOwn, isRecord⟩
        · simp only [isSame]
          exact .inl ⟨_, fun _ => rfl⟩
        · simp only [isRecord]
          exact .inr ⟨own, _, isSeen_record named isSeen isItem isAroundOwn own, fun _ => rfl⟩

/-- The routines of a document follow the text of an element in it. -/
theorem followsAmong_document (named : name = "Comment" ∨ name = "Text") {node : ι → Node}
    (seen : IsEntrySeen name shown fun index => (node index).entry isList)
    (silent : ∀ index, (node index).text? = none) {around : Node → Node}
    (encloses : Encloses around) (left right : List Node) :
    FollowsAmong shown (IsEntry name) fun index =>
      (routineValues (.ofDocument isList (left ++ around (node index) :: right))).filterMap
        entry? := by
  unfold Value.ofDocument
  rcases exists_areAround_nodes (isEntrySeen_around named seen silent encloses).1 left right with
    ⟨same, isSame⟩ | ⟨key, value, item, isSeen, isItem, isAround⟩
  · simp only [isSame]
    exact .inl ⟨_, fun _ => rfl⟩
  · exact follows_found isSeen isItem isAround

end Seen

end L5x
end LadderDiagram
