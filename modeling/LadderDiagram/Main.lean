import LadderDiagram.Host.Run
import LadderDiagram.Http.Exchange
import LadderDiagram.Json.Parser
import LadderDiagram.Json.Printer

/-!
# The command line

The host reads its settings from the arguments and the environment, opens the
document that they name and then answers one request per line of its input, each
with one line of its output.  Its log goes to the other stream.
-/

namespace LadderDiagram
namespace Host

/-- The variables that are set. -/
def readEnvironment : IO Environment := do
  let values ← variableNames.mapM fun name => return (name, ← IO.getEnv name)
  return fun name => (values.find? fun entry => entry.1 == name).bind (·.2)

def writeLog (lines : List String) : IO Unit := do
  let log ← IO.getStderr
  for line in lines do
    log.putStr line
  log.flush

/-- Answers the requests of the input until it ends; lines that hold none are passed over. -/
partial def answerLines (drawing : Drawing Float) : IO Unit := do
  let line ← (← IO.getStdin).getLine
  if line.isEmpty then
    return
  match (Json.parse? line).bind Http.Request.ofJson? with
  | none => answerLines drawing
  | some request =>
      let reply := Http.serve drawing request
      writeLog (logLines reply.events)
      let output ← IO.getStdout
      output.putStrLn reply.response.toJson.render
      output.flush
      answerLines reply.drawing

/-- Opens the document, says where the host is and answers requests. -/
def runHost (settings : Settings) (environment : Environment) : IO UInt32 := do
  let document ← settings.document.mapM fun path => IO.FS.readFile path
  let prepared := prepare settings environment document
  writeLog prepared.lines
  match prepared.result with
  | .error message =>
      writeLog [failureLine message]
      return 1
  | .ok drawing =>
      writeLog (startLines settings)
      answerLines drawing
      return 0

end Host
end LadderDiagram

def main (arguments : List String) : IO UInt32 := do
  let environment ← LadderDiagram.Host.readEnvironment
  try
    LadderDiagram.Host.runHost (.read arguments environment) environment
  catch error =>
    LadderDiagram.Host.writeLog [LadderDiagram.Host.failureLine (toString error)]
    return 1
