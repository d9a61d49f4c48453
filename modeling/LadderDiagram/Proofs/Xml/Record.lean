import LadderDiagram.Xml.Value
import Mathlib.Data.List.Nodup
import Mathlib.Data.List.Perm.Basic

/-!
# Fields of records

The named values of an element become fields in their own order as long as no name is a number.
Values of different names are fields of their own, and several values of one name are one list.
-/

namespace LadderDiagram
namespace Xml

/-- A name with a sign that is no digit stands for no place. -/
theorem place?_eq_none {name : String} {char : Char} (member : char ∈ name.toList)
    (notDigit : ¬ char.isDigit) : place? name = none := by
  apply Option.eq_none_iff_forall_ne_some.mpr
  intro place isPlace
  obtain ⟨_, accepted⟩ := Option.filter_eq_some_iff.mp isPlace
  obtain ⟨same, _⟩ := Bool.and_eq_true_iff.mp accepted
  apply notDigit
  rw [← beq_iff_eq.mp same, Nat.toString_eq_repr, Nat.toList_repr] at member
  exact Nat.isDigit_of_mem_toDigits (by decide) (by decide) member

/-- Names that are no numbers. -/
def AreWords (names : List String) : Prop := ∀ name ∈ names, ∃ char ∈ name.toList, ¬ char.isDigit

instance (names : List String) : Decidable (AreWords names) :=
  decidable_of_iff (names.all fun name => name.toList.any fun char => !char.isDigit)
    (by simp [AreWords])

theorem fieldOrder_eq_self {names : List String} (areWords : AreWords names) :
    fieldOrder names = names := by
  have none (name : String) (member : name ∈ names) : place? name = none := by
    obtain ⟨char, inName, notDigit⟩ := areWords name member
    exact place?_eq_none inName notDigit
  have noPlaces : names.filterMap (fun name => (place? name).map (·, name)) = [] := by
    apply List.filterMap_eq_nil_iff.mpr
    intro name member
    rw [none name member]
    rfl
  have all : names.filter (fun name => (place? name).isNone) = names := by
    apply List.filter_eq_self.mpr
    intro name member
    rw [none name member]
    rfl
  rw [fieldOrder, noPlaces, all, List.mergeSort_nil]
  rfl

theorem eraseDups_of_nodup {names : List String} (distinct : names.Nodup) :
    names.eraseDups = names := by
  induction names with
  | nil => rfl
  | cons name rest ih =>
      rw [List.nodup_cons] at distinct
      have others : rest.filter (fun other => !other == name) = rest := by
        apply List.filter_eq_self.mpr
        intro other member
        have apart : other ≠ name := fun same => distinct.1 (same ▸ member)
        simpa using apart
      rw [List.eraseDups_cons, others, ih distinct.2]

/-- What a field of a name holds. -/
def held (isList : String → Bool) (name : String) : List Value → Value
  | [single] => if isList name then .list [single] else single
  | several => .list several

section Gather

variable {isList : String → Bool} {entries : List (String × Value)}

theorem filter_name_of_nodup (distinct : (entries.map (·.1)).Nodup) {entry : String × Value}
    (member : entry ∈ entries) : entries.filter (·.1 == entry.1) = [entry] := by
  induction entries with
  | nil => cases member
  | cons first rest ih =>
      rw [List.map_cons, List.nodup_cons] at distinct
      rcases List.mem_cons.mp member with rfl | later
      · have others : rest.filter (·.1 == entry.1) = [] := by
          apply List.filter_eq_nil_iff.mpr
          intro other inRest same
          exact distinct.1 (List.mem_map.mpr ⟨other, inRest, beq_iff_eq.mp same⟩)
        rw [List.filter_cons_of_pos (by exact beq_self_eq_true _), others]
      · have apart : ¬ (first.1 == entry.1) = true := by
          intro same
          exact distinct.1 (List.mem_map.mpr ⟨entry, later, (beq_iff_eq.mp same).symm⟩)
        rw [List.filter_cons_of_neg (by exact apart), ih distinct.2 later]

/-- Values of different names are fields of their own. -/
theorem gather_of_nodup (areWords : AreWords (entries.map (·.1)))
    (distinct : (entries.map (·.1)).Nodup) :
    gather isList entries =
      entries.map fun entry =>
        (entry.1, if isList entry.1 then .list [entry.2] else entry.2) := by
  rw [gather, eraseDups_of_nodup distinct, fieldOrder_eq_self areWords, List.map_map]
  apply List.map_congr_left
  intro entry member
  rw [Function.comp_apply, filter_name_of_nodup distinct member]
  rfl

/-- Values of one name are one field, which is a list unless there is one that stands alone. -/
theorem gather_of_forall_eq {name : String} (areWords : AreWords [name]) {values : List Value}
    (nonempty : values ≠ []) :
    gather isList (values.map (name, ·)) = [(name, held isList name values)] := by
  have all : (values.map (name, ·)).filter (·.1 == name) = values.map (name, ·) := by
    simp
  have names : ((values.map (name, ·)).map (·.1)).eraseDups = [name] := by
    obtain ⟨first, more, rfl⟩ := List.exists_cons_of_ne_nil nonempty
    have noOther : (more.map fun _ => name).filter (fun other => !other == name) = [] := by
      simp
    rw [List.map_map, List.map_cons, List.eraseDups_cons]
    exact congrArg (name :: List.eraseDups ·) noOther
  have values_eq : (values.map (name, ·)).map (·.2) = values := by
    rw [List.map_map]
    exact List.map_id values
  rw [gather, names, fieldOrder_eq_self areWords, List.map_singleton, all, values_eq]
  match values with
  | [] => rfl
  | [single] => rfl
  | first :: second :: more => rfl

end Gather

/-! ### Assigned fields -/

theorem assign_cons (name : String) (value : Value) (own : String) (held : Value)
    (rest : List (String × Value)) :
    assign name value ((own, held) :: rest) =
      if own == name then (name, value) :: rest else (own, held) :: assign name value rest := rfl

theorem field?_cons (key own : String) (value : Value) (rest : List (String × Value)) :
    (Value.record ((own, value) :: rest)).field? key =
      ((Value.record rest).field? key).or (if own == key then some value else none) := by
  rw [Value.field?, Value.field?, List.reverse_cons, List.find?_append, List.find?_singleton]
  cases rest.reverse.find? (·.1 == key) <;> by_cases same : own == key <;> simp [same]

/-- Assigning a field leaves the others. -/
theorem field?_assign {key name : String} (apart : name ≠ key) (value : Value)
    (fields : List (String × Value)) :
    (Value.record (assign name value fields)).field? key = (Value.record fields).field? key := by
  induction fields with
  | nil =>
      rw [assign, field?_cons, if_neg (by simpa using apart)]
      rfl
  | cons first rest ih =>
      rw [assign_cons]
      split
      next own =>
        have other : ¬ (name == key) = true := by simpa using apart
        rw [field?_cons, field?_cons, beq_iff_eq.mp own, if_neg other, if_neg other]
      next => rw [field?_cons, field?_cons, ih]

/-! ### Records around a value -/

theorem nodup_eraseDups (names : List String) : names.eraseDups.Nodup := by
  induction isLength : names.length using Nat.strongRecOn generalizing names with
  | _ length ih =>
      cases names with
      | nil => exact List.nodup_nil
      | cons name rest =>
          rw [List.eraseDups_cons, List.nodup_cons, List.mem_eraseDups]
          refine ⟨by simp, ih _ ?_ _ rfl⟩
          rw [← isLength]
          exact Nat.lt_succ_of_le (List.length_filter_le _ rest)

theorem fieldOrder_perm (names : List String) : (fieldOrder names).Perm names := by
  have places : ((names.filterMap fun name => (place? name).map (·, name)).map (·.2)) =
      names.filter fun name => (place? name).isSome := by
    rw [List.map_filterMap]
    simp only [Option.map_map]
    induction names with
    | nil => rfl
    | cons name rest ih => cases isPlace : place? name <;> simpa [isPlace] using ih
  have sorted := ((names.filterMap fun name => (place? name).map (·, name)).mergeSort_perm
    fun first second => first.1 ≤ second.1).map (·.2)
  rw [places] at sorted
  refine (sorted.append_right _).trans ?_
  have others : (names.filter fun name => (place? name).isNone) =
      names.filter fun name => !(place? name).isSome := by
    simp
  rw [others]
  exact List.filter_append_perm _ names

section Around

variable {ι : Type} {key : String} {item : ι → Value} {fields : ι → List (String × Value)}

/-- Fields among which at most one varies. -/
def AreAround (key : String) (item : ι → Value) (fields : ι → List (String × Value)) : Prop :=
  (∃ same, ∀ index, fields index = same) ∨
    ∃ before after, ∀ index, fields index = before ++ (key, item index) :: after

/-- What one varying value makes of the field of its name. -/
def IsItem (isList : String → Bool) (key : String) (value item : ι → Value) : Prop :=
  (isList key = false ∧ item = value) ∨
    ∃ before after, item = fun index => .list (before ++ value index :: after)

/-- The field of a name among named values. -/
def fieldOf (isList : String → Bool) (entries : List (String × Value)) (name : String) :
    String × Value :=
  (name, held isList name ((entries.filter (·.1 == name)).map (·.2)))

theorem gather_eq (isList : String → Bool) (entries : List (String × Value)) :
    gather isList entries =
      (fieldOrder (entries.map (·.1)).eraseDups).map (fieldOf isList entries) := by
  unfold gather fieldOf
  apply List.map_congr_left
  intro name _
  split
  next single isSingle =>
    rw [isSingle]
    rfl
  next notSingle =>
    unfold held
    split
    next single isSingle => exact absurd isSingle (notSingle single)
    next => rfl

/-- The fields of other names do not see a value. -/
theorem map_fieldOf_of_not_mem {names : List String} (apart : key ∉ names)
    (isList : String → Bool) (value : Value) (before after : List (String × Value)) :
    names.map (fieldOf isList (before ++ (key, value) :: after)) =
      names.map (fieldOf isList (before ++ after)) := by
  apply List.map_congr_left
  intro name member
  have other : ¬ (key == name) = true := fun same => apart (beq_iff_eq.mp same ▸ member)
  rw [fieldOf, fieldOf, List.filter_append, List.filter_append,
    List.filter_cons_of_neg (by exact other)]

/-- The field of its own name holds the value, or has it in its list. -/
theorem exists_isItem_fieldOf (isList : String → Bool) (key : String) (value : ι → Value)
    (before after : List (String × Value)) :
    ∃ item, IsItem isList key value item ∧
      ∀ index, fieldOf isList (before ++ (key, value index) :: after) key = (key, item index) := by
  have values (index : ι) :
      ((before ++ (key, value index) :: after).filter (·.1 == key)).map (·.2) =
      (before.filter (·.1 == key)).map (·.2) ++ value index ::
        (after.filter (·.1 == key)).map (·.2) := by
    rw [List.filter_append, List.filter_cons_of_pos (by exact beq_self_eq_true key),
      List.map_append, List.map_cons]
  generalize (before.filter (·.1 == key)).map (·.2) = left at values
  generalize (after.filter (·.1 == key)).map (·.2) = right at values
  refine ⟨fun index => held isList key (left ++ value index :: right), ?_, fun index => by
    rw [fieldOf, values]⟩
  match left, right with
  | [], [] =>
      cases listed : isList key with
      | false => exact .inl ⟨listed, funext fun _ => if_neg (by simp [listed])⟩
      | true => exact .inr ⟨[], [], funext fun _ => if_pos listed⟩
  | [], second :: more => exact .inr ⟨[], second :: more, rfl⟩
  | [first], right => exact .inr ⟨[first], right, rfl⟩
  | first :: second :: more, right => exact .inr ⟨first :: second :: more, right, rfl⟩

/-- A value among the named ones of an element is seen in one field at most. -/
theorem exists_areAround_gather (isList : String → Bool) (key : String) (value : ι → Value)
    (before after : List (String × Value)) :
    ∃ item, IsItem isList key value item ∧
      AreAround key item fun index => gather isList (before ++ (key, value index) :: after) := by
  obtain ⟨item, isItem, own⟩ := exists_isItem_fieldOf isList key value before after
  obtain ⟨order, distinct, isGather⟩ : ∃ order : List String, order.Nodup ∧ ∀ index,
      gather isList (before ++ (key, value index) :: after) =
        order.map (fieldOf isList (before ++ (key, value index) :: after)) := by
    refine ⟨fieldOrder (before.map (·.1) ++ key :: after.map (·.1)).eraseDups,
      (fieldOrder_perm _).nodup_iff.mpr (nodup_eraseDups _), fun index => ?_⟩
    rw [gather_eq, List.map_append, List.map_cons]
  refine ⟨item, isItem, ?_⟩
  by_cases member : key ∈ order
  · obtain ⟨front, back, rfl⟩ := List.append_of_mem member
    obtain ⟨_, distinctBack, apart⟩ := List.nodup_append.mp distinct
    have notFront : key ∉ front := fun inFront => apart key inFront key List.mem_cons_self rfl
    refine .inr ⟨front.map (fieldOf isList (before ++ after)),
      back.map (fieldOf isList (before ++ after)), fun index => (isGather index).trans ?_⟩
    rw [List.map_append, List.map_cons, map_fieldOf_of_not_mem notFront,
      map_fieldOf_of_not_mem (List.nodup_cons.mp distinctBack).1, own]
  · exact .inl ⟨_, fun index => (isGather index).trans (map_fieldOf_of_not_mem member _ _ _ _)⟩

theorem assign_append (name : String) (value : Value) (before rest : List (String × Value)) :
    assign name value (before ++ rest) =
      if name ∈ before.map (·.1) then assign name value before ++ rest
      else before ++ assign name value rest := by
  induction before with
  | nil => rfl
  | cons first more ih =>
      rw [List.cons_append, assign_cons, assign_cons, ih]
      by_cases own : first.1 = name
      · simp [own]
      · by_cases later : name ∈ more.map (·.1) <;> simp [own, Ne.symm own, later]

theorem AreAround.assign (around : AreAround key item fields) (name : String) (value : Value) :
    AreAround key item fun index => assign name value (fields index) := by
  rcases around with ⟨same, isSame⟩ | ⟨before, after, isAround⟩
  · exact .inl ⟨Xml.assign name value same, fun index => congrArg _ (isSame index)⟩
  unfold AreAround
  simp only [isAround, assign_append, assign_cons]
  by_cases earlier : name ∈ before.map (·.1)
  · exact .inr ⟨Xml.assign name value before, after, fun _ => if_pos earlier⟩
  · simp only [if_neg earlier]
    by_cases own : key == name
    · exact .inl ⟨before ++ (name, value) :: after, fun _ => by rw [if_pos own]⟩
    · exact .inr ⟨before, Xml.assign name value after, fun _ => by rw [if_neg own]⟩

theorem AreAround.foldl_assign (around : AreAround key item fields)
    (attributes : List (String × String)) :
    AreAround key item fun index => attributes.foldl
      (fun fields (name, value) => Xml.assign (attributeKey name) (.scalar (.text value)) fields)
      (fields index) := by
  induction attributes generalizing fields with
  | nil => exact around
  | cons first rest ih => exact ih (around.assign _ _)

/-- A field is the same for all, or it is the one that varies. -/
theorem AreAround.field? (around : AreAround key item fields) (name : String) :
    (∃ same, ∀ index, (Value.record (fields index)).field? name = same) ∨
      name = key ∧ ∀ index, (Value.record (fields index)).field? name = some (item index) := by
  rcases around with ⟨same, isSame⟩ | ⟨before, after, isAround⟩
  · exact .inl ⟨(Value.record same).field? name, fun index => by rw [isSame]⟩
  have backwards (index : ι) : (fields index).reverse =
      after.reverse ++ (key, item index) :: before.reverse := by
    rw [isAround, List.reverse_append, List.reverse_cons, List.append_assoc]
    rfl
  simp only [Value.field?, backwards, List.find?_append]
  cases after.reverse.find? (·.1 == name) with
  | some last => exact .inl ⟨some last.2, fun _ => rfl⟩
  | none =>
      by_cases own : key == name
      · refine .inr ⟨(beq_iff_eq.mp own).symm, fun index => ?_⟩
        rw [List.find?_cons_of_pos (by exact own)]
        rfl
      · refine .inl ⟨(before.reverse.find? (·.1 == name)).map (·.2), fun index => ?_⟩
        rw [List.find?_cons_of_neg (by exact own)]
        rfl

/-- An element with a child that varies is a record around it. -/
theorem AreAround.ofParts (around : AreAround key item fields) (text? : Option Value)
    (attributes : List (String × String)) :
    (∃ same, ∀ index, Value.ofParts (fields index) text? attributes = same) ∨
      ∃ own, AreAround key item own ∧
        ∀ index, Value.ofParts (fields index) text? attributes = .record (own index) := by
  rcases around with ⟨same, isSame⟩ | ⟨before, after, isAround⟩
  · exact .inl ⟨Value.ofParts same text? attributes, fun index => by rw [isSame]⟩
  have started : AreAround key item fun index =>
      fields index ++ (text?.map (textKey, ·)).toList :=
    .inr ⟨before, after ++ (text?.map (textKey, ·)).toList, fun index => by
      simp only [isAround, List.append_assoc, List.cons_append]⟩
  refine .inr ⟨_, started.foldl_assign attributes, fun index => ?_⟩
  rw [isAround]
  cases before <;> rfl

end Around

end Xml
end LadderDiagram
