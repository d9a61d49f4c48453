import LadderDiagram.Json.Coercion
import LadderDiagram.Json.Printer

/-!
# Schemas

A schema checks a JSON value and reads it as a value of the library.  It
reports every issue it finds, in the order of its rules.  A value of the wrong
kind cannot be read at all; a value that only breaks a limit can, so that
further rules still apply to it.  A value is accepted when no issue is found.
-/

namespace LadderDiagram

inductive IssueCause
  | missing
  | wrongKind (expected received : String)
  | notWhole
  | negative
  | notPositive
  | emptyText
  | rule (message : String)
  /-- The value cannot even be asked whether it is a number. -/
  | noText
  deriving DecidableEq, Repr

namespace IssueCause

def code : IssueCause → String
  | .missing | .wrongKind .. | .notWhole | .noText => "invalid_type"
  | .negative | .notPositive | .emptyText => "too_small"
  | .rule _ => "custom"

def message : IssueCause → String
  | .missing => "Required"
  | .wrongKind expected received => "Expected " ++ expected ++ ", received " ++ received
  | .notWhole => "Expected integer, received float"
  | .negative => "Number must be greater than or equal to 0"
  | .notPositive => "Number must be greater than 0"
  | .emptyText => "String must contain at least 1 character(s)"
  | .rule message => message
  | .noText => "Cannot convert object to primitive value"

end IssueCause

/-- An issue with the place where it was found. -/
structure Issue where
  path : List String
  cause : IssueCause
  deriving DecidableEq, Repr

namespace Issue

def pathText (issue : Issue) : String := ".".intercalate issue.path

/-- The issue of a value inside a field or item named `key`. -/
def within (key : String) (issue : Issue) : Issue :=
  { issue with path := key :: issue.path }

def toJson (issue : Issue) : Json :=
  .obj [("code", .str issue.cause.code), ("message", .str issue.cause.message),
    ("path", .str issue.pathText)]

end Issue

/-- The outcome of a check: the issues found, and the value if it can be read. -/
structure Checked (α : Type) where
  issues : List Issue
  value : Option α

namespace Checked

variable {α β : Type}

def pure (value : α) : Checked α := ⟨[], some value⟩

def fail (cause : IssueCause) : Checked α := ⟨[⟨[], cause⟩], none⟩

/-- A value that is read although it breaks some rules. -/
def marked (value : α) (causes : List IssueCause) : Checked α :=
  ⟨causes.map (⟨[], ·⟩), some value⟩

def map (change : α → β) (checked : Checked α) : Checked β :=
  ⟨checked.issues, checked.value.map change⟩

/-- Two checks, the issues of the first one first. -/
def seq (first : Checked (α → β)) (second : Checked α) : Checked β :=
  ⟨first.issues ++ second.issues, first.value.bind fun change => second.value.map change⟩

def within (key : String) (checked : Checked α) : Checked α :=
  { checked with issues := checked.issues.map (·.within key) }

/-- A further rule on a value that can be read; its issue is placed at `path`. -/
def require (checked : Checked α) (holds : α → Bool) (message : String)
    (path : List String) : Checked α :=
  match checked.value with
  | some value =>
      if holds value then checked
      else { checked with issues := checked.issues ++ [⟨path, .rule message⟩] }
  | none => checked

/-- The value if no issue was found, and otherwise the issues. -/
def result (checked : Checked α) : Except (List Issue) α :=
  match checked.issues, checked.value with
  | [], some value => .ok value
  | issues, _ => .error issues

end Checked

/-- A check of a value that may be missing. -/
abbrev Schema (α : Type) := Option Json → Checked α

/-- The limits that a number has to keep. -/
inductive Limit
  | none
  | notNegative
  | positive
  deriving DecidableEq, Repr

namespace Schema

variable {α β : Type}

def field (key : String) (schema : Schema α) (json : Json) : Checked α :=
  (schema (json.field? key)).within key

/-- A value that may be missing, but not null. -/
def optional (schema : Schema α) : Schema (Option α) := fun json? =>
  match json? with
  | none => .pure none
  | some json => (schema (some json)).map some

/-- A value of one kind; anything else is refused by its own kind's name. -/
def ofKind (expected : String) (read? : Json → Option α) : Schema α := fun json? =>
  match json? with
  | none => .fail .missing
  | some json =>
      match read? json with
      | some value => .pure value
      | none => .fail (.wrongKind expected json.kindName)

/-- An object whose fields are checked in the order in which the schema names them. -/
def object (fields : Json → Checked α) : Schema α := fun json? =>
  match ofKind "object" (fun json => json.isObject?) json? with
  | ⟨issues, none⟩ => ⟨issues, none⟩
  | ⟨_, some json⟩ => fields json

def text : Schema String := ofKind "string" fun json =>
  match json with
  | .str value => some value
  | _ => none

/-- A text with at least one character. -/
def filledText : Schema String := fun json? =>
  let checked := text json?
  match checked.value with
  | some "" => .marked "" [.emptyText]
  | _ => checked

/-- Items checked one after the other, placed by their numbers. -/
def items (schema : Schema α) (index : Nat) : List Json → Checked (List α)
  | [] => .pure []
  | json :: rest =>
      (((schema (some json)).within (toString index)).map List.cons).seq
        (items schema (index + 1) rest)

def array (schema : Schema α) : Schema (List α) := fun json? =>
  match ofKind "array" (fun json => json.isArray?) json? with
  | ⟨issues, none⟩ => ⟨issues, none⟩
  | ⟨_, some json⟩ => items schema 0 json

/-- The limits that a number breaks: wholeness comes before the range. -/
def limitFaults (whole : Bool) (limit : Limit) (isWhole negative positive : Bool) :
    List IssueCause :=
  (if whole && !isWhole then [.notWhole] else []) ++
    match limit with
    | .none => []
    | .notNegative => if negative then [.negative] else []
    | .positive => if positive then [] else [.notPositive]

/-- Whether a double is a whole number, which its binary form shows. -/
def isWhole (value : Float) : Bool :=
  match Decimal.Binary.ofFloat value with
  | .finite _ mantissa exponent => (Decimal.wholeValue? mantissa exponent).isSome
  | _ => false

/-- The limits applied to a double. -/
def limited (whole : Bool) (limit : Limit) (value : Float) : Checked Float :=
  .marked value (limitFaults whole limit (isWhole value) (value < 0) (0 < value))

def number (whole : Bool) (limit : Limit) : Schema Float := fun json? =>
  let checked := ofKind "number" (fun json => json.isNumber?) json?
  match checked.value with
  | some value => limited whole limit value
  | none => checked

/--
A value taken for a number, whatever its kind, and then held to the limits.
What is no number at all is refused.
-/
def coerced (whole : Bool) (limit : Limit) : Schema Float := fun json? =>
  let value := Json.asNumber json?
  if json?.any (!·.hasText) then .fail .noText
  else if value.isNaN then .fail (.wrongKind "number" "nan")
  else limited whole limit value

end Schema

/-!
### Issues as a report

Where nobody can take issues one by one they are reported together, as indented
JSON that also tells which limit was broken.
-/

/-- The lower limit of a number or a length, and whether it may be reached. -/
def lowerLimit (least : Nat) (kind : String) (reachable : Bool) : List (String × Json) :=
  [("minimum", .ofNat least), ("type", .str kind), ("inclusive", .bool reachable),
    ("exact", .bool false)]

/-- The kind that was expected and the one that was found. -/
def kindFields (expected received : String) : List (String × Json) :=
  [("expected", .str expected), ("received", .str received)]

/-- What a report says of a cause besides its code and its message. -/
def IssueCause.reportFields : IssueCause → List (String × Json)
  | .missing | .rule _ | .noText => []
  | .wrongKind expected received => kindFields expected received
  | .notWhole => kindFields "integer" "float"
  | .negative => lowerLimit 0 "number" true
  | .notPositive => lowerLimit 0 "number" false
  | .emptyText => lowerLimit 1 "string" true

def Issue.report (issue : Issue) : Json :=
  .obj ([("code", .str issue.cause.code)] ++ issue.cause.reportFields ++
    [("message", .str issue.cause.message), ("path", .ofList .str issue.path)])

def reportIssues (issues : List Issue) : String :=
  (Json.ofList Issue.report issues).renderIndented

end LadderDiagram
