import LadderDiagram.Http.Route
import LadderDiagram.Json.Printer

/-!
# Exchanges

A request and its response can travel as JSON, one object each.  The text
posted with a request is that of the value `body`; a text `raw` stands for
itself and counts before it.  A request without a method reads.  Some objects
describe no request: a method that is no word or is not to be used, a target
without a host, and a text that is posted where something is read.
-/

namespace LadderDiagram
namespace Http

def textField? (json : Json) (key : String) : Option String :=
  match json.field? key with
  | some (.str value) => some value
  | _ => none

def postedText? (json : Json) : Option String :=
  match textField? json "raw" with
  | some raw => some raw
  | none => (json.field? "body").map Json.render

def isMethodChar (char : Char) : Bool :=
  char.isAlphanum || "!#$%&'*+-.^_\x60|~".toList.contains char

def isMethod (word : String) : Bool :=
  !word.isEmpty && word.toList.all isMethodChar &&
    ["CONNECT", "TRACE", "TRACK"].all (· != word.toUpper)

def Request.ofJson? (json : Json) : Option Request :=
  let method := (textField? json "method").getD "GET"
  let posted? := postedText? json
  if isMethod method && !(isReading method && posted?.isSome) then
    (Target.read? ((textField? json "path").getD "")).map fun target =>
      ⟨method, target, posted?.getD ""⟩
  else none

def Response.toJson (response : Response) : Json :=
  let content :=
    match response.content with
    | .json value => ("body", value)
    | .text value => ("text", .str value)
  .obj [("status", .ofNat response.status), content]

end Http
end LadderDiagram
