import LadderDiagram.Layout.Config
import LadderDiagram.Schema.Basic

/-!
# Reading configurations

A configuration is read from JSON under its schema, from the standard
configuration with some values replaced, or from environment variables.
-/

namespace LadderDiagram

def Size.toJson {α : Type} [Scalar α] (size : Size α) : Json :=
  .obj [("width", .num (Scalar.toFloat size.width)),
    ("height", .num (Scalar.toFloat size.height))]

namespace LayoutConfig

def sizesJson {α : Type} [Scalar α] (config : LayoutConfig α) : List (String × Json) :=
  [("contact", config.sizes.contact.toJson), ("coil", config.sizes.coil.toJson),
    ("block", config.sizes.block.toJson),
    ("branchMarker", config.sizes.branchMarker.toJson)]

def measuresJson {α : Type} [Scalar α] (config : LayoutConfig α) : List (String × Json) :=
  Measure.all.map fun measure =>
    (measure.key, .num (Scalar.toFloat (config.measure measure)))

def toJson {α : Type} [Scalar α] (config : LayoutConfig α) : Json :=
  .obj (config.measuresJson ++ [("sizes", .obj config.sizesJson)])

end LayoutConfig

namespace Schema

/-- A distance under its own limit. -/
def measure (measure : Measure) (json : Json) : Checked Float :=
  field measure.key
    (number true (if measure.isPositive then .positive else .notNegative)) json

/-- A size of whole positive numbers. -/
def size : Schema (Size Float) :=
  object fun json =>
    ((field "width" (number true .positive) json).map Size.mk).seq
      (field "height" (number true .positive) json)

def sizes : Schema (Sizes Float) :=
  object fun json =>
    ((((field "contact" size json).map Sizes.mk).seq (field "coil" size json)).seq
      (field "block" size json)).seq (field "branchMarker" size json)

/-- A configuration with its distances and sizes, before the rules that join them. -/
def configFields (json : Json) : Checked (LayoutConfig Float) :=
  (((((((((((measure .leftRailX json).map LayoutConfig.mk).seq
    (measure .rightRailMinX json)).seq
    (measure .railOffset json)).seq
    (measure .elementSpacing json)).seq
    (measure .minimumWireLength json)).seq
    (measure .branchSpacing json)).seq
    (measure .rungPadding json)).seq
    (measure .commentLineHeight json)).seq
    (measure .routineOriginY json)).seq
    (measure .rungGap json)).seq
    (field "sizes" sizes json)

/-- A configuration under all its rules. -/
def config : Schema (LayoutConfig Float) := fun json? =>
  ((object configFields json?).require LayoutConfig.leavesMarkerRoom
      "railOffset must leave room for the branch marker" ["railOffset"]).require
    LayoutConfig.fitsTallest "branchSpacing must fit the tallest element" ["branchSpacing"]

end Schema

/-- The fields of an object; any other value has none. -/
def Json.fields : Json → List (String × Json)
  | .obj fields => fields
  | _ => []

namespace LayoutConfig

/--
The standard configuration with replacements, checked as a whole.  A replaced
size is replaced altogether; unknown fields do not count.
-/
def resolve (replacements : Json) : Except (List Issue) (LayoutConfig Float) :=
  let standard : LayoutConfig Float := standard
  let sizes := (replacements.field? "sizes").getD .null
  let merged : Json :=
    .obj (standard.measuresJson ++ replacements.fields ++
      [("sizes", .obj (standard.sizesJson ++ sizes.fields))])
  (Schema.config (some merged)).result

/-- An environment variable that should be a whole number and is not. -/
structure VariableError where
  name : String
  value : String
  deriving DecidableEq, Repr

def VariableError.message (error : VariableError) : String :=
  error.name ++ " must be an integer, got '" ++ error.value ++ "'."

/--
The replacements that environment variables make, in the order of the measures.
A variable that is blank does not count.
-/
def replacementsFrom (lookup : String → Option String) :
    List Measure → Except VariableError (List (String × Json))
  | [] => .ok []
  | measure :: rest =>
      match (lookup measure.variableName).filter (fun raw => !Text.isBlankText raw) with
      | none => replacementsFrom lookup rest
      | some raw =>
          match (Schema.coerced true .none (some (.str raw))).result with
          | .error _ => .error ⟨measure.variableName, raw⟩
          | .ok value =>
              (replacementsFrom lookup rest).map ((measure.key, .num value) :: ·)

def environmentReplacements (lookup : String → Option String) : Except VariableError Json :=
  (replacementsFrom lookup Measure.all).map .obj

end LayoutConfig
end LadderDiagram
