import LadderDiagram.Command.Schema
import LadderDiagram.Encoding.Command
import LadderDiagram.Http.Percent
import LadderDiagram.Http.Target
import LadderDiagram.Json.Parser

/-!
# Routes

The editor as a service over HTTP.  Every operation has a path to which its
arguments are posted, and a few more paths show the routine, its document, its
layout and its measures.  Failures have a status and a code: a request that does
not fit the drawing differs from one that names nothing on it.
-/

namespace LadderDiagram
namespace Http

/-- What a path leads to. -/
inductive Route
  | index
  | health
  | routine
  | document
  | extent
  | layout
  | operation (operation : Operation)
  deriving DecidableEq, Repr

/-- The path under which all others lie. -/
def basePath : String := "/api/v1"

def operationPath? : Operation → Option String
  | .load => some "/routine/load"
  | .layout => none
  | .insertInstruction => some "/instructions/insert"
  | .replaceInstruction => some "/instructions/replace"
  | .insertBranch => some "/branches/insert"
  | .insertBranchLevel => some "/branches/insert-level"
  | .moveBranch => some "/branches/move"
  | .removeBranch => some "/branches/remove"
  | .removeElement => some "/elements/remove"
  | .setComment => some "/comments/set"
  | .addRung => some "/rungs/add"
  | .removeRung => some "/rungs/remove"
  | .locate => some "/locate"
  | .findInsertion => some "/insertion-position"

def postedOperations : List Operation :=
  [.load, .addRung, .removeRung, .insertInstruction, .replaceInstruction, .insertBranch,
    .insertBranchLevel, .moveBranch, .removeBranch, .removeElement, .setComment, .locate,
    .findInsertion]

def readRoutes : List (String × Route) :=
  [("", .index), ("/health", .health), ("/routine", .routine), ("/routine/l5x", .document),
    ("/extent", .extent), ("/layout", .layout)]

/-- The routes to which something is posted, with their paths. -/
def postRoutes : List (String × Route) :=
  postedOperations.filterMap fun operation =>
    (operationPath? operation).map fun path => (path, .operation operation)

/-- Whether a method asks what is at its target: for all of it, or for its head only. -/
def isReading (method : String) : Bool := method.toUpper == "GET" || method.toUpper == "HEAD"

/-- Where a method, in letters of either case, and a path lead. -/
def route? (method path : String) : Option Route :=
  let routes :=
    if isReading method then readRoutes
    else if method.toUpper == "POST" then postRoutes
    else []
  (routes.find? fun entry => basePath ++ entry.1 == path).map (·.2)

/-- A request: its method, its target and the text posted with it. -/
structure Request where
  method : String
  target : Target
  body : String

/-- What a response carries. -/
inductive Content
  | json (value : Json)
  | text (value : String)

structure Response where
  status : Nat
  content : Content

/-- The response to a request with the drawing after it and its events. -/
structure Reply where
  response : Response
  drawing : Drawing Float
  events : List (Event Float)

def ok (value : Json) : Response := ⟨200, .json value⟩

def notFound : Response := ⟨404, .text "404 Not Found"⟩

/-- The response to arguments that do not fit their schema. -/
def invalidArguments (issues : List Issue) : Response :=
  ⟨400, .json (.obj [("code", .str "invalid_params"),
    ("issues", .ofList (fun issue : Issue =>
      .obj [("message", .str issue.cause.message), ("path", .str issue.pathText)]) issues)])⟩

/-- The response to arguments that give no command. -/
def refused : Refusal → Response
  | .issues issues => invalidArguments issues
  | .unchecked => ⟨500, .text "Internal Server Error"⟩

def ladderStatus (error : LadderError) : Nat :=
  if error.recoverable then 409
  else
    match error.code with
    | .positionOutOfRange | .branchNotFound => 404
    | _ => 422

def failed : CommandError → Response
  | .ladder error =>
      ⟨ladderStatus error, .json (.ofFields [("code", some (.str error.code.name)),
        ("message", some (.str error.message)), ("details", error.details)])⟩
  | .document error =>
      let coded (status : Nat) (code : String) : Response :=
        ⟨status, .json (.obj [("code", .str code), ("message", .str error.message)])⟩
      if error.isFormatError then coded 422 "invalid_l5x" else coded 500 "internal_error"

/-- Where each thing is to be found. -/
def indexJson : Json :=
  let at_ (name path : String) : String × Json := (name, .str (basePath ++ path))
  .obj [("endpoints", .obj [at_ "branchInsert" "/branches/insert",
    at_ "branchInsertLevel" "/branches/insert-level", at_ "branchMove" "/branches/move",
    at_ "branchRemove" "/branches/remove", at_ "commentSet" "/comments/set",
    at_ "elementRemove" "/elements/remove", at_ "extent" "/extent", at_ "health" "/health",
    at_ "insertionPosition" "/insertion-position",
    at_ "instructionInsert" "/instructions/insert",
    at_ "instructionReplace" "/instructions/replace", at_ "layout" "/layout",
    at_ "locate" "/locate", at_ "routine" "/routine", at_ "routineExport" "/routine/l5x",
    at_ "routineLoad" "/routine/load", at_ "rungAdd" "/rungs/add",
    at_ "rungRemove" "/rungs/remove"]), ("mcpEndpoint", .str "/mcp")]

/-- That the service is there. -/
def healthJson : Json :=
  .obj [("service", .str "ladder-editor-mcp"), ("status", .str "ok")]

def dropByteOrderMark : List Char → List Char
  | '\uFEFF' :: rest => rest
  | chars => chars

/--
The value of a posted text, which may have two marks of byte order in front of
it.  A text that cannot be read counts as no arguments at all.
-/
def bodyJson (body : String) : Json :=
  (Json.parse? (String.ofList (dropByteOrderMark (dropByteOrderMark body.toList)))).getD (.obj [])

/-- Responds with what a command answers. -/
def carryOut (drawing : Drawing Float) (command : Command Float) : Reply :=
  let outcome := command.execute drawing
  match outcome.result with
  | .ok response => ⟨ok response.toJson, outcome.drawing, outcome.events⟩
  | .error error => ⟨failed error, outcome.drawing, outcome.events⟩

def carryOutWith (drawing : Drawing Float) (operation : Operation) (arguments : Json) : Reply :=
  match operation.read (some arguments) with
  | .error refusal => ⟨refused refusal, drawing, []⟩
  | .ok command => carryOut drawing command

def respond (drawing : Drawing Float) (request : Request) : Reply :=
  let target := request.target
  match route? request.method target.path with
  | none => ⟨notFound, drawing, []⟩
  | some .index => ⟨ok indexJson, drawing, []⟩
  | some .health => ⟨ok healthJson, drawing, []⟩
  | some .routine => carryOut drawing .routine
  | some .document => carryOut drawing (.exportDocument (queryValue? target.query "program"))
  | some .extent => carryOut drawing .extent
  | some .layout =>
      carryOutWith drawing .layout
        (.ofFields [("rungNumber", (queryValue? target.query "rung").map .str)])
  | some (.operation operation) =>
      carryOutWith drawing operation (bodyJson request.body)

/-- A response without what it carries. -/
def Response.head (response : Response) : Response := { response with content := .text "" }

/-- Responds to a request, and only with the head of a response where no more is asked for. -/
def serve (drawing : Drawing Float) (request : Request) : Reply :=
  let reply := respond drawing request
  if request.method.toUpper == "HEAD" then { reply with response := reply.response.head }
  else reply

end Http
end LadderDiagram
