import LadderDiagram.Host.Settings
import LadderDiagram.Http.Route
import LadderDiagram.Text.Uppercase

/-!
# Runs of a host

A host prepares a drawing, starts to listen, answers requests one after the
other and stops when it is told to.  What it writes to its log, the codes with
which it asks to end and what it answers are functions of its settings and of
what happens to it.
-/

namespace LadderDiagram
namespace Host

def logLine (event : LogEvent) : String :=
  Text.upper event.level.name ++ " " ++ event.scope ++ ": " ++ event.message ++ "\n"

def logLines (events : List (Event Float)) : List String :=
  events.filterMap fun event =>
    match event with
    | .log entry => some (logLine entry)
    | .note _ => none
    | .layout _ => none

def failureLine (message : String) : String :=
  "[MCP] Failed to start ladder editor MCP server: " ++ message ++ "\n"

def startLines (settings : Settings) : List String :=
  ["[MCP] Ladder editor MCP server started on " ++ settings.site ++ settings.endpoint ++ "\n",
    "[REST] Ladder editor REST API available at " ++ settings.site ++ Http.basePath ++ "\n"]

def stopLine (message : String) : String :=
  logLine ⟨.warn, "mcp", "Stop failed: " ++ message, none⟩

/-- What a host has written and the drawing that it has, or why it has none. -/
structure Prepared where
  lines : List String
  result : Except String (Drawing Float)

/-- Prepares the drawing, with the text of the document to open if there is one. -/
def prepare (settings : Settings) (environment : Environment) (document : Option String) :
    Prepared :=
  match readConfig environment with
  | .error error => ⟨[], .error error.message⟩
  | .ok config =>
      let drawing := Drawing.blank config .empty
      match document with
      | none => ⟨[], .ok drawing⟩
      | some text =>
          let outcome := Command.execute drawing (.loadDocument text settings.routine)
          match outcome.result with
          | .ok _ => ⟨logLines outcome.events, .ok outcome.drawing⟩
          | .error error => ⟨logLines outcome.events, .error error.message⟩

def serveAll (drawing : Drawing Float) :
    List Http.Request → List Http.Response × List String
  | [] => ([], [])
  | request :: rest =>
      let reply := Http.serve drawing request
      let (responses, lines) := serveAll reply.drawing rest
      (reply.response :: responses, logLines reply.events ++ lines)

/-- What happens to a host from outside. -/
structure Fate where
  /-- Why listening could not start. -/
  startError : Option String
  requests : List Http.Request
  /-- Whether the host is told to stop. -/
  signalled : Bool
  /-- Why listening could not stop. -/
  stopError : Option String

/-- What a host has done. -/
structure Transcript where
  /-- Whether it tried to listen. -/
  started : Bool
  responses : List Http.Response
  lines : List String
  /-- The codes with which it asked to end, in order. -/
  exits : List Nat
  /-- How often it tried to stop listening. -/
  stops : Nat

def run (settings : Settings) (environment : Environment) (document : Option String)
    (fate : Fate) : Transcript :=
  let prepared := prepare settings environment document
  match prepared.result with
  | .error message => ⟨false, [], prepared.lines ++ [failureLine message], [1], 0⟩
  | .ok drawing =>
      let (startLog, startExits) :=
        match fate.startError with
        | none => (startLines settings, [])
        | some message => ([failureLine message], [1])
      let (responses, serviceLog) := serveAll drawing fate.requests
      let (stopLog, stopExits) :=
        if fate.signalled then ((fate.stopError.map stopLine).toList, [0]) else ([], [])
      ⟨true, responses, prepared.lines ++ startLog ++ serviceLog ++ stopLog,
        startExits ++ stopExits, stopExits.length⟩

def listenJson (endpoint host : String) (socket : Float) : Json :=
  .obj [("httpStream", .obj [("endpoint", .str endpoint), ("host", .str host),
    ("port", .num socket)]), ("transportType", .str "httpStream")]

end Host
end LadderDiagram
