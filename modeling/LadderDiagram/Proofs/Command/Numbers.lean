import LadderDiagram.Command.Schema
import LadderDiagram.Proofs.Decimal.Numeral

/-!
# Numbers among the arguments

The addresses and the coordinates of a command are taken from any value that can be taken for a
number.  What a field has against a value is a matter of that value only, and so is the number that
the command gets: null and a truth value are numbers, and so is a blank text, and a list is one if
its text is.
-/

namespace LadderDiagram

/-! ### Checks without issues, and issues at one field -/

namespace Checked

variable {α β : Type}

/-- The check finds no issue and gives a value. -/
def Accepts (checked : Checked α) (value : α) : Prop :=
  checked.issues = [] ∧ checked.value = some value

theorem result_eq_ok_iff {checked : Checked α} {value : α} :
    checked.result = .ok value ↔ checked.Accepts value := by
  obtain ⟨issues, read⟩ := checked
  unfold Accepts result
  cases issues with
  | cons issue rest => exact ⟨nofun, fun accepts => nomatch accepts.1⟩
  | nil =>
      cases read with
      | none => exact ⟨nofun, fun accepts => nomatch accepts.2⟩
      | some own => simp

theorem accepts_map {checked : Checked α} {change : α → β} {value : β} :
    (checked.map change).Accepts value ↔ ∃ own, checked.Accepts own ∧ change own = value := by
  simp [Accepts, Checked.map, and_assoc]

theorem accepts_seq {first : Checked (α → β)} {second : Checked α} {value : β} :
    (first.seq second).Accepts value ↔
      ∃ change own, first.Accepts change ∧ second.Accepts own ∧ change own = value := by
  simp only [Accepts, seq, List.append_eq_nil_iff, Option.bind_eq_some_iff, Option.map_eq_some_iff]
  constructor
  · rintro ⟨⟨noneFirst, noneSecond⟩, change, isChange, own, isOwn, same⟩
    exact ⟨change, own, ⟨noneFirst, isChange⟩, ⟨noneSecond, isOwn⟩, same⟩
  · rintro ⟨change, own, ⟨noneFirst, isChange⟩, ⟨noneSecond, isOwn⟩, same⟩
    exact ⟨⟨noneFirst, noneSecond⟩, change, isChange, own, isOwn, same⟩

theorem accepts_within {checked : Checked α} {key : String} {value : α} :
    (checked.within key).Accepts value ↔ checked.Accepts value := by
  simp [Accepts, within]

theorem Accepts.of_require {checked : Checked α} {holds : α → Bool} {message : String}
    {path : List String} {value : α}
    (accepts : (checked.require holds message path).Accepts value) : checked.Accepts value := by
  unfold require at accepts
  split at accepts
  · split at accepts
    · exact accepts
    · exact absurd accepts.1 (List.append_ne_nil_of_right_ne_nil _ (List.cons_ne_nil _ _))
  · exact accepts

/-- What has been found at one field, in the order of the rules. -/
def causesAt (key : String) (checked : Checked α) : List IssueCause :=
  (checked.issues.filter (·.path == [key])).map (·.cause)

theorem causesAt_map (key : String) (checked : Checked α) (change : α → β) :
    (checked.map change).causesAt key = checked.causesAt key := rfl

theorem causesAt_seq (key : String) (first : Checked (α → β)) (second : Checked α) :
    (first.seq second).causesAt key = first.causesAt key ++ second.causesAt key := by
  simp [causesAt, seq]

theorem causesAt_within_of_ne {key other : String} (different : other ≠ key)
    (checked : Checked α) : (checked.within other).causesAt key = [] := by
  simp [causesAt, within, Issue.within, different]

theorem causesAt_within_self (key : String) {checked : Checked α}
    (flat : ∀ issue ∈ checked.issues, issue.path = []) :
    (checked.within key).causesAt key = checked.issues.map (·.cause) := by
  have all : (checked.within key).issues.filter (·.path == [key]) = (checked.within key).issues := by
    apply List.filter_eq_self.mpr
    intro issue member
    obtain ⟨inner, isInner, rfl⟩ := List.mem_map.mp member
    simp [Issue.within, flat inner isInner]
  unfold causesAt
  rw [all]
  simp [within, Issue.within]

theorem causesAt_require (key : String) (checked : Checked α) (holds : α → Bool)
    (message : String) : (checked.require holds message []).causesAt key = checked.causesAt key := by
  unfold require
  split
  · split
    · rfl
    · simp [causesAt]
  · rfl

end Checked

/-! ### Values taken for numbers -/

/-- A number as commands carry it: it names a place, or it measures the drawing. -/
inductive Number
  | address (value : Address)
  | coordinate (value : Float)

inductive NumberKind
  | address
  | coordinate
  deriving DecidableEq

namespace NumberKind

def ofFloat (kind : NumberKind) (value : Float) : Number :=
  match kind with
  | .address => .address (.ofFloat value)
  | .coordinate => .coordinate value

/-- The number that a value is taken for. -/
def read (kind : NumberKind) (json : Json) : Number := kind.ofFloat (Json.asNumber (some json))

/-- What there is against a number: a place is named by a whole number that is not negative. -/
def faultsOf (kind : NumberKind) (value : Float) : List IssueCause :=
  if value.isNaN then [.wrongKind "number" "nan"]
  else
    match kind with
    | .coordinate => []
    | .address =>
        (if !Schema.isWhole value then [.notWhole] else []) ++
          if value < 0 then [.negative] else []

/-- What there is against a value that is taken for a number. -/
def faults (kind : NumberKind) (json : Json) : List IssueCause :=
  if json.hasText then kind.faultsOf (Json.asNumber (some json)) else [.noText]

/-- What there is against a field that is missing or has a value. -/
def faults? (kind : NumberKind) (mayBeMissing : Bool) : Option Json → List IssueCause
  | none => if mayBeMissing then [] else [.wrongKind "number" "nan"]
  | some json => kind.faults json

end NumberKind

namespace Schema

open Checked

variable {α : Type}

/-- A schema that asks for a number of a kind, and how its values stand for that number. -/
structure TakesNumber (kind : NumberKind) (mayBeMissing : Bool) (number? : α → Option Number)
    (schema : Schema α) : Prop where
  issues_eq : ∀ json?, (schema json?).issues = (kind.faults? mayBeMissing json?).map (⟨[], ·⟩)
  read_eq : ∀ json? value, (schema json?).Accepts value → json?.map kind.read = number? value

theorem issues_coerced (whole : Bool) (limit : Limit) (json : Json) :
    (coerced whole limit (some json)).issues =
      (if json.hasText then
        if (Json.asNumber (some json)).isNaN then [.wrongKind "number" "nan"]
        else limitFaults whole limit (isWhole (Json.asNumber (some json)))
          (Json.asNumber (some json) < 0) (0 < Json.asNumber (some json))
      else [.noText]).map (⟨[], ·⟩) := by
  unfold coerced
  dsimp only [Option.any_some]
  by_cases asked : json.hasText = true
  · have known : ¬ (!json.hasText) = true := by rw [asked]; decide
    rw [if_neg known, if_pos asked]
    split <;> rfl
  · have unknown : (!json.hasText) = true := by rw [Bool.eq_false_iff.mpr asked]; decide
    rw [if_pos unknown, if_neg asked]
    rfl

theorem value_coerced {whole : Bool} {limit : Limit} {json : Json} {value : Float}
    (accepts : (coerced whole limit (some json)).Accepts value) :
    value = Json.asNumber (some json) := by
  obtain ⟨_, isValue⟩ := accepts
  unfold coerced at isValue
  dsimp only at isValue
  split at isValue
  · cases isValue
  · split at isValue
    · cases isValue
    · exact (Option.some.inj isValue).symm

/-- Nothing is no number. -/
theorem coerced_none (whole : Bool) (limit : Limit) :
    coerced whole limit none = .fail (.wrongKind "number" "nan") := by
  have undefined : (Json.asNumber none).isNaN = true := by decide +kernel
  unfold coerced
  dsimp only [Option.any_none]
  rw [if_neg Bool.false_ne_true, if_pos undefined]

theorem takesNumber_address : TakesNumber .address false (some ∘ .address) address where
  issues_eq json? := by
    cases json? with
    | none => exact congrArg (·.issues) (coerced_none true .notNegative)
    | some json =>
        refine (issues_coerced true .notNegative json).trans ?_
        simp [NumberKind.faults?, NumberKind.faults, NumberKind.faultsOf, limitFaults]
  read_eq json? value accepts := by
    obtain ⟨own, ownAccepts, rfl⟩ := accepts_map.mp accepts
    cases json? with
    | none =>
        rw [coerced_none] at ownAccepts
        cases ownAccepts.1
    | some json =>
        rw [value_coerced ownAccepts]
        rfl

theorem takesNumber_coordinate :
    TakesNumber .coordinate false (some ∘ .coordinate) coordinate where
  issues_eq json? := by
    cases json? with
    | none => exact congrArg (·.issues) (coerced_none false .none)
    | some json =>
        refine (issues_coerced false .none json).trans ?_
        simp [NumberKind.faults?, NumberKind.faults, NumberKind.faultsOf, limitFaults]
  read_eq json? value accepts := by
    cases json? with
    | none =>
        unfold coordinate at accepts
        rw [coerced_none] at accepts
        cases accepts.1
    | some json =>
        rw [value_coerced accepts]
        rfl

theorem TakesNumber.optional {kind : NumberKind} {number : α → Number} {schema : Schema α}
    (takes : TakesNumber kind false (some ∘ number) schema) :
    TakesNumber kind true (Option.map number) (optional schema) where
  issues_eq json? := by
    cases json? with
    | none => rfl
    | some json => exact takes.issues_eq (some json)
  read_eq json? value accepts := by
    cases json? with
    | none =>
        obtain rfl := Option.some.inj accepts.2
        rfl
    | some json =>
        obtain ⟨own, ownAccepts, rfl⟩ := accepts_map.mp accepts
        exact takes.read_eq (some json) own ownAccepts

variable {kind : NumberKind} {mayBeMissing : Bool} {number? : α → Option Number}
  {schema : Schema α}

theorem TakesNumber.causesAt_field (takes : TakesNumber kind mayBeMissing number? schema)
    (key : String) (json : Json) :
    (field key schema json).causesAt key = kind.faults? mayBeMissing (json.field? key) := by
  have flat : ∀ issue ∈ (schema (json.field? key)).issues, issue.path = [] := by
    rw [takes.issues_eq]
    intro issue member
    obtain ⟨cause, _, rfl⟩ := List.mem_map.mp member
    rfl
  refine (causesAt_within_self key flat).trans ?_
  rw [takes.issues_eq, List.map_map]
  exact List.map_id _

theorem TakesNumber.read_field (takes : TakesNumber kind mayBeMissing number? schema)
    {key : String} {json : Json} {value : α} (accepts : (field key schema json).Accepts value) :
    (json.field? key).map kind.read = number? value :=
  takes.read_eq _ value (accepts_within.mp accepts)

/-- An object is checked field by field. -/
theorem object_obj (check : Json → Checked α) (fields : List (String × Json)) :
    object check (some (.obj fields)) = check (.obj fields) := rfl

theorem causesAt_field_of_ne {key other : String} (different : other ≠ key) (schema : Schema α)
    (json : Json) : (field other schema json).causesAt key = [] :=
  causesAt_within_of_ne different _

end Schema

/-! ### Operations -/

/-- A field with a number among the arguments of an operation. -/
structure NumberField where
  key : String
  kind : NumberKind
  mayBeMissing : Bool

def Operation.numberFields : Operation → List NumberField
  | .load => []
  | .layout => [⟨"rungNumber", .address, true⟩]
  | .insertInstruction =>
      [⟨"rungNumber", .address, true⟩, ⟨"position", .address, true⟩, ⟨"branchId", .address, true⟩,
        ⟨"x", .coordinate, true⟩, ⟨"y", .coordinate, true⟩]
  | .replaceInstruction | .insertBranchLevel | .removeElement =>
      [⟨"rungNumber", .address, false⟩, ⟨"position", .address, false⟩]
  | .insertBranch =>
      [⟨"rungNumber", .address, false⟩, ⟨"start", .address, false⟩, ⟨"end", .address, false⟩,
        ⟨"branchId", .address, true⟩]
  | .moveBranch =>
      [⟨"rungNumber", .address, false⟩, ⟨"branchId", .address, false⟩,
        ⟨"position", .address, false⟩, ⟨"targetBranchId", .address, true⟩]
  | .removeBranch => [⟨"rungNumber", .address, false⟩, ⟨"branchId", .address, false⟩]
  | .setComment | .removeRung => [⟨"rungNumber", .address, false⟩]
  | .addRung => [⟨"index", .address, true⟩]
  | .locate => [⟨"x", .coordinate, false⟩, ⟨"y", .coordinate, false⟩]
  | .findInsertion =>
      [⟨"x", .coordinate, false⟩, ⟨"rungNumber", .address, false⟩,
        ⟨"branchLevel", .address, false⟩, ⟨"branchId", .address, true⟩]

/-- The numbers that a command carries, by the names of their fields. -/
def Command.numbers : Command Float → List (String × Option Number)
  | .load _ | .loadDocument .. | .exportDocument _ | .routine | .extent => []
  | .layout rung => [("rungNumber", rung.map .address)]
  | .insertInstruction _ placement =>
      [("rungNumber", placement.rung.map .address),
        ("position", placement.position.map .address), ("branchId", placement.rail.map .address),
        ("x", placement.x.map .coordinate), ("y", placement.y.map .coordinate)]
  | .replaceInstruction _ rung position | .insertBranchLevel rung position
  | .removeElement rung position =>
      [("rungNumber", some (.address rung)), ("position", some (.address position))]
  | .insertBranch rung first last rail =>
      [("rungNumber", some (.address rung)), ("start", some (.address first)),
        ("end", some (.address last)), ("branchId", rail.map .address)]
  | .moveBranch rung id position rail =>
      [("rungNumber", some (.address rung)), ("branchId", some (.address id)),
        ("position", some (.address position)), ("targetBranchId", rail.map .address)]
  | .removeBranch rung id =>
      [("rungNumber", some (.address rung)), ("branchId", some (.address id))]
  | .setComment rung _ | .removeRung rung => [("rungNumber", some (.address rung))]
  | .addRung _ place => [("index", place.map .address)]
  | .locate x y => [("x", some (.coordinate x)), ("y", some (.coordinate y))]
  | .findInsertion x rung level rail =>
      [("x", some (.coordinate x)), ("rungNumber", some (.address rung)),
        ("branchLevel", some (.address level)), ("branchId", rail.map .address)]

namespace Operation

open Checked Schema

/-- The issues at a field with a number are those of its value. -/
theorem causesAt_schema (operation : Operation) (fields : List (String × Json))
    {field : NumberField} (member : field ∈ operation.numberFields) :
    (operation.schema (some (.obj fields))).causesAt field.key =
      field.kind.faults? field.mayBeMissing ((Json.obj fields).field? field.key) := by
  have place := takesNumber_address.causesAt_field
  have place? := takesNumber_address.optional.causesAt_field
  have coordinate := takesNumber_coordinate.causesAt_field
  have coordinate? := takesNumber_coordinate.optional.causesAt_field
  revert field
  cases operation <;>
    simp [numberFields, Operation.schema, object_obj, elementLocation, placedInstruction,
      causesAt_seq, causesAt_map, causesAt_require, causesAt_field_of_ne, place, place?, coordinate,
      coordinate?]

/-- The numbers of a command are those that the values of its fields are taken for. -/
theorem numbers_eq_of_accepts (operation : Operation) (fields : List (String × Json))
    {command : Command Float} (accepts : (operation.schema (some (.obj fields))).Accepts command) :
    command.numbers = operation.numberFields.map fun field =>
      (field.key, ((Json.obj fields).field? field.key).map field.kind.read) := by
  have place {key : String} {value : Address}
      (own : (field key address (.obj fields)).Accepts value) :=
    takesNumber_address.read_field own
  have place? {key : String} {value : Option Address}
      (own : (field key (optional address) (.obj fields)).Accepts value) :=
    takesNumber_address.optional.read_field own
  have coordinate {key : String} {value : Float}
      (own : (field key coordinate (.obj fields)).Accepts value) :=
    takesNumber_coordinate.read_field own
  have coordinate? {key : String} {value : Option Float}
      (own : (field key (optional Schema.coordinate) (.obj fields)).Accepts value) :=
    takesNumber_coordinate.optional.read_field own
  cases operation with
  | load =>
      obtain ⟨sent, _, rfl⟩ := accepts_map.mp accepts
      unfold SentRoutine.command
      cases sent.document <;> rfl
  | layout =>
      obtain ⟨rung, isRung, rfl⟩ := accepts_map.mp accepts
      simp [numberFields, Command.numbers, place? isRung]
  | insertInstruction =>
      obtain ⟨_, placed, rfl⟩ := accepts_map.mp accepts
      have placed := placed.of_require
      simp only [object_obj, accepts_seq, accepts_map] at placed
      obtain ⟨_, y, ⟨_, x, ⟨_, rail, ⟨_, position, ⟨_, rung, ⟨content, _, rfl⟩, isRung, rfl⟩,
        isPosition, rfl⟩, isRail, rfl⟩, isX, rfl⟩, isY, rfl⟩ := placed
      simp [numberFields, Command.numbers, place? isRung, place? isPosition, place? isRail,
        coordinate? isX, coordinate? isY]
  | replaceInstruction =>
      simp only [Operation.schema, object_obj, accepts_seq, accepts_map] at accepts
      obtain ⟨_, position, ⟨_, rung, ⟨content, _, rfl⟩, isRung, rfl⟩, isPosition, rfl⟩ := accepts
      simp [numberFields, Command.numbers, place isRung, place isPosition]
  | insertBranch =>
      simp only [Operation.schema, object_obj, accepts_seq, accepts_map] at accepts
      obtain ⟨_, rail, ⟨_, last, ⟨_, first, ⟨rung, isRung, rfl⟩, isFirst, rfl⟩, isLast, rfl⟩,
        isRail, rfl⟩ := accepts
      simp [numberFields, Command.numbers, place isRung, place isFirst, place isLast, place? isRail]
  | insertBranchLevel =>
      simp only [Operation.schema, elementLocation, object_obj, accepts_seq, accepts_map] at accepts
      obtain ⟨_, position, ⟨rung, isRung, rfl⟩, isPosition, rfl⟩ := accepts
      simp [numberFields, Command.numbers, place isRung, place isPosition]
  | moveBranch =>
      simp only [Operation.schema, object_obj, accepts_seq, accepts_map] at accepts
      obtain ⟨_, rail, ⟨_, position, ⟨_, id, ⟨rung, isRung, rfl⟩, isId, rfl⟩, isPosition, rfl⟩,
        isRail, rfl⟩ := accepts
      simp [numberFields, Command.numbers, place isRung, place isId, place isPosition,
        place? isRail]
  | removeBranch =>
      simp only [Operation.schema, object_obj, accepts_seq, accepts_map] at accepts
      obtain ⟨_, id, ⟨rung, isRung, rfl⟩, isId, rfl⟩ := accepts
      simp [numberFields, Command.numbers, place isRung, place isId]
  | removeElement =>
      simp only [Operation.schema, elementLocation, object_obj, accepts_seq, accepts_map] at accepts
      obtain ⟨_, position, ⟨rung, isRung, rfl⟩, isPosition, rfl⟩ := accepts
      simp [numberFields, Command.numbers, place isRung, place isPosition]
  | setComment =>
      simp only [Operation.schema, object_obj, accepts_seq, accepts_map] at accepts
      obtain ⟨_, comment, ⟨rung, isRung, rfl⟩, _, rfl⟩ := accepts
      simp [numberFields, Command.numbers, place isRung]
  | addRung =>
      simp only [Operation.schema, object_obj, accepts_seq, accepts_map] at accepts
      obtain ⟨_, index, ⟨_, comment, ⟨text, _, rfl⟩, _, rfl⟩, isIndex, rfl⟩ := accepts
      simp [numberFields, Command.numbers, place? isIndex]
  | removeRung =>
      simp only [Operation.schema, object_obj, accepts_map] at accepts
      obtain ⟨rung, isRung, rfl⟩ := accepts
      simp [numberFields, Command.numbers, place isRung]
  | locate =>
      simp only [Operation.schema, object_obj, accepts_seq, accepts_map] at accepts
      obtain ⟨_, y, ⟨x, isX, rfl⟩, isY, rfl⟩ := accepts
      simp [numberFields, Command.numbers, coordinate isX, coordinate isY]
  | findInsertion =>
      simp only [Operation.schema, object_obj, accepts_seq, accepts_map] at accepts
      obtain ⟨_, rail, ⟨_, level, ⟨_, rung, ⟨x, isX, rfl⟩, isRung, rfl⟩, isLevel, rfl⟩,
        isRail, rfl⟩ := accepts
      simp [numberFields, Command.numbers, coordinate isX, place isRung, place isLevel,
        place? isRail]

end Operation

/-! ### What passes for a number -/

namespace Json

open Decimal

/-- A value that writes a number: a number, or a text with a numeral between blanks. -/
inductive Writes : Json → Float → Prop
  | number {value : Float} : value.isNaN = false → Writes (.num value) value
  | numeral {text : String} {value : Float} :
      Numeral (Text.trimChars text.toList) value → Writes (.str text) value

/-- A value that passes for a number although it writes none. -/
inductive PassesFor : Json → Float → Prop
  | null : PassesFor .null 0
  | truth (value : Bool) : PassesFor (.bool value) (if value then 1 else 0)
  | blank {text : String} : Text.trimChars text.toList = [] → PassesFor (.str text) 0
  | blankList {items : List Json} :
      haveTexts items → Text.trimChars (itemText (.arr items)).toList = [] →
      PassesFor (.arr items) 0
  | list {items : List Json} {value : Float} :
      haveTexts items → Numeral (Text.trimChars (itemText (.arr items)).toList) value →
      PassesFor (.arr items) value

theorem asNumber_of_writes {json : Json} {value : Float} (writes : json.Writes value) :
    json.hasText = true ∧ asNumber (some json) = value ∧ value.isNaN = false := by
  cases writes with
  | number isNumber => exact ⟨rfl, rfl, isNumber⟩
  | numeral isNumeral =>
      refine ⟨rfl, ?_, isNumeral.isNaN_eq⟩
      exact (readNumber_eq _).trans isNumeral.readTrimmed_eq

theorem asNumber_of_passesFor {json : Json} {value : Float} (passes : json.PassesFor value) :
    json.hasText = true ∧ asNumber (some json) = value ∧ value.isNaN = false := by
  have zero : (0 : Float).isNaN = false := by decide +kernel
  cases passes with
  | null => exact ⟨rfl, rfl, zero⟩
  | truth value =>
      refine ⟨rfl, rfl, ?_⟩
      cases value <;> decide +kernel
  | blank empty =>
      refine ⟨rfl, (readNumber_eq _).trans ?_, zero⟩
      rw [empty]
      rfl
  | blankList asked empty =>
      refine ⟨asked, (readNumber_eq _).trans ?_, zero⟩
      rw [empty]
      rfl
  | list asked isNumeral =>
      exact ⟨asked, (readNumber_eq _).trans isNumeral.readTrimmed_eq, isNumeral.isNaN_eq⟩

/-- Nothing else is taken for a number. -/
theorem exists_of_asNumber {json : Json} (asked : json.hasText = true)
    (isNumber : (asNumber (some json)).isNaN = false) :
    json.Writes (asNumber (some json)) ∨ json.PassesFor (asNumber (some json)) := by
  have reads {text : String} (isNumber : (readNumber text).isNaN = false) :
      Text.trimChars text.toList = [] ∧ readNumber text = 0 ∨
        Numeral (Text.trimChars text.toList) (readNumber text) := by
    rcases readNumber_cases text with blank | ⟨value, isNumeral, rfl, _⟩ | ⟨_, _, undefined⟩
    · exact .inl blank
    · exact .inr isNumeral
    · cases undefined.symm.trans isNumber
  cases json with
  | null => exact .inr .null
  | bool value => exact .inr (.truth value)
  | num value => exact .inl (.number isNumber)
  | str text =>
      rcases reads isNumber with ⟨blank, zero⟩ | isNumeral
      · have passes : PassesFor (.str text) (readNumber text) := by
          rw [zero]
          exact .blank blank
        exact .inr passes
      · exact .inl (.numeral isNumeral)
  | arr items =>
      rcases reads isNumber with ⟨blank, zero⟩ | isNumeral
      · have passes : PassesFor (.arr items) (readNumber (itemText (.arr items))) := by
          rw [zero]
          exact .blankList asked blank
        exact .inr passes
      · exact .inr (.list asked isNumeral)
  | obj fields => cases isNaN_undefinedNumber.symm.trans isNumber

end Json

namespace NumberKind

open Json

/-- A value that writes a number or passes for one is checked and read as that number. -/
theorem faults_eq_of_writes (kind : NumberKind) {json : Json} {value : Float}
    (taken : json.Writes value ∨ json.PassesFor value) :
    kind.faults json = kind.faultsOf value ∧ kind.read json = kind.ofFloat value := by
  obtain ⟨asked, rfl, _⟩ : json.hasText = true ∧ asNumber (some json) = value ∧
      value.isNaN = false := by
    rcases taken with writes | passes
    · exact asNumber_of_writes writes
    · exact asNumber_of_passesFor passes
  exact ⟨if_pos asked, rfl⟩

/-- A value against which there is nothing writes a number or passes for one. -/
theorem exists_of_faults_eq_nil {kind : NumberKind} {json : Json} (none : kind.faults json = []) :
    ∃ value, (json.Writes value ∨ json.PassesFor value) ∧ kind.faultsOf value = [] ∧
      kind.read json = kind.ofFloat value := by
  unfold faults at none
  split at none
  · rename_i asked
    cases isNumber : (asNumber (some json)).isNaN with
    | false => exact ⟨_, exists_of_asNumber asked isNumber, none, rfl⟩
    | true =>
        unfold faultsOf at none
        rw [if_pos isNumber] at none
        cases none
  · cases none

/-- Zero and one are places and coordinates. -/
theorem faultsOf_truth (kind : NumberKind) (value : Bool) :
    kind.faultsOf (if value then 1 else 0) = [] := by
  cases kind <;> cases value <;> decide +kernel

end NumberKind

namespace Operation

open Checked

/--
What is found at a field with a number is a matter of its value only.  There is nothing against
the value exactly if it writes a number that keeps the limits of the field, or passes for such a
number, and then the command gets that number.  So null, a truth value and a blank text are never
refused: they pass for zero or one.
-/
theorem numbers_of_arguments (operation : Operation) (fields : List (String × Json)) :
    (∀ field ∈ operation.numberFields,
      (operation.schema (some (.obj fields))).causesAt field.key =
        field.kind.faults? field.mayBeMissing ((Json.obj fields).field? field.key)) ∧
    (∀ command, operation.read (some (.obj fields)) = .ok command →
      command.numbers = operation.numberFields.map (fun field =>
        (field.key, ((Json.obj fields).field? field.key).map field.kind.read)) ∧
      ∀ field ∈ operation.numberFields, ∀ json, (Json.obj fields).field? field.key = some json →
        ∃ value, (json.Writes value ∨ json.PassesFor value) ∧ field.kind.faultsOf value = [] ∧
          field.kind.read json = field.kind.ofFloat value) ∧
    (∀ (kind : NumberKind) (json : Json) (value : Float), json.Writes value ∨ json.PassesFor value →
      kind.faults json = kind.faultsOf value ∧ kind.read json = kind.ofFloat value) ∧
    ∀ (kind : NumberKind) (truth : Bool), kind.faultsOf (if truth then 1 else 0) = [] := by
  refine ⟨fun field member => operation.causesAt_schema fields member, ?_,
    fun kind _ _ taken => kind.faults_eq_of_writes taken, NumberKind.faultsOf_truth⟩
  intro command reads
  have accepts : (operation.schema (some (.obj fields))).Accepts command := by
    unfold read at reads
    split at reads
    · rename_i own isOwn
      obtain rfl := Except.ok.inj reads
      exact result_eq_ok_iff.mp isOwn
    · cases reads
  refine ⟨operation.numbers_eq_of_accepts fields accepts, ?_⟩
  intro field member json isValue
  apply NumberKind.exists_of_faults_eq_nil
  have found := operation.causesAt_schema fields member
  rw [isValue] at found
  change _ = field.kind.faults json at found
  rw [← found, causesAt, accepts.1]
  rfl

/-- What a text and a truth value name in a request to remove a branch. -/
theorem numbers_of_arguments_of_sample :
    ∃ command,
      Operation.removeBranch.read
        (some (.obj [("rungNumber", .str " 0x1F "), ("branchId", .bool true)])) = .ok command ∧
      command.numbers =
        [("rungNumber", some (.address (.ofNat 31))), ("branchId", some (.address (.ofNat 1)))] := by
  have succeeds : (Operation.removeBranch.read
      (some (.obj [("rungNumber", .str " 0x1F "), ("branchId", .bool true)]))).toOption.isSome =
        true := by
    decide +kernel
  have rung : Address.ofFloat (Json.asNumber (some (.str " 0x1F "))) = .ofNat 31 := by
    decide +kernel
  have id : Address.ofFloat (Json.asNumber (some (.bool true))) = .ofNat 1 := by decide +kernel
  obtain ⟨command, reads⟩ := exists_ok_of_isSome succeeds
  obtain ⟨same, _⟩ := (numbers_of_arguments _ _).2.1 command reads
  refine ⟨command, reads, ?_⟩
  rw [same]
  change [("rungNumber", some (Number.address (Address.ofFloat _))),
    ("branchId", some (Number.address (Address.ofFloat _)))] = _
  rw [rung, id]

theorem address_null : Schema.address (some .null) = .pure (.ofNat 0) := by
  have issues : (Schema.address (some .null)).issues = [] := by decide +kernel
  have value : (Schema.address (some .null)).value = some (.ofNat 0) := by decide +kernel
  generalize Schema.address (some .null) = checked at issues value
  obtain ⟨_, _⟩ := checked
  obtain rfl : _ = _ := issues
  obtain rfl : _ = _ := value
  rfl

/-- Null writes no number, and yet it names the first rung and its first branch. -/
theorem null_passes_for_zero :
    (∀ value, ¬ Json.null.Writes value) ∧
      Operation.removeRung.read (some (.obj [("rungNumber", .null)])) =
        .ok (.removeRung (.ofNat 0)) ∧
      Operation.removeBranch.read (some (.obj [("rungNumber", .null), ("branchId", .null)])) =
        .ok (.removeBranch (.ofNat 0) (.ofNat 0)) := by
  refine ⟨nofun, ?_, ?_⟩
  · have schema : Operation.removeRung.schema (some (.obj [("rungNumber", .null)])) =
        ((Schema.address (some .null)).within "rungNumber").map .removeRung := rfl
    rw [read, schema, address_null]
    rfl
  · have schema : Operation.removeBranch.schema
          (some (.obj [("rungNumber", .null), ("branchId", .null)])) =
        (((Schema.address (some .null)).within "rungNumber").map .removeBranch).seq
          ((Schema.address (some .null)).within "branchId") := rfl
    rw [read, schema, address_null]
    rfl

end Operation

end LadderDiagram
