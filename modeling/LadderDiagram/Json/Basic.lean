/-!
# JSON values

The values that requests and answers carry.  Numbers are doubles, and an object
keeps its fields in the order in which they were written.
-/

namespace LadderDiagram

/-- A JSON value. -/
inductive Json
  | null
  | bool (value : Bool)
  | num (value : Float)
  | str (value : String)
  | arr (items : List Json)
  | obj (fields : List (String × Json))

namespace Json

instance : Inhabited Json := ⟨.null⟩

/-- The field of an object; of several with one name the last counts. -/
def field? (key : String) : Json → Option Json
  | .obj fields => (fields.reverse.find? (·.1 == key)).map (·.2)
  | _ => none

/-- The object with those of the given fields that are present. -/
def ofFields (fields : List (String × Option Json)) : Json :=
  .obj (fields.filterMap fun (key, value?) => value?.map (key, ·))

def orNull : Option Json → Json
  | some value => value
  | none => .null

def ofNat (value : Nat) : Json := .num (Float.ofNat value)

def ofInt (value : Int) : Json := .num (Float.ofInt value)

def ofList {α : Type} (encode : α → Json) (items : List α) : Json :=
  .arr (items.map encode)

/-- The fields of the first object with those of the second after them. -/
def merge : Json → Json → Json
  | .obj first, .obj second => .obj (first ++ second)
  | _, second => second

end Json
end LadderDiagram
