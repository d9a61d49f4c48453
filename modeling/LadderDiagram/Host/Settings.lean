import LadderDiagram.Decimal.Notation
import LadderDiagram.Layout.ConfigSchema
import LadderDiagram.Schema.Basic
import LadderDiagram.Text.Line

/-!
# Settings

A host is told by its arguments and by environment variables where it listens,
which document it opens and how the drawing is laid out.  An argument counts
before a variable and the first of several arguments before the others.
-/

namespace LadderDiagram
namespace Host

/-- The value of an environment variable, if it is set. -/
abbrev Environment := String → Option String

/-- The variables that tell where a host listens. -/
def portVariable : String := "LADDER_MCP_PORT"

def hostVariable : String := "LADDER_MCP_HOST"

def endpointVariable : String := "LADDER_MCP_ENDPOINT"

def variableNames : List String :=
  [portVariable, hostVariable, endpointVariable] ++ Measure.all.map Measure.variableName

/-- The text behind the equals sign of the first argument with a name. -/
def argument? (arguments : List String) (name : String) : Option (List Char) :=
  let start := "--".toList ++ name.toList ++ ['=']
  (arguments.find? fun argument => start.isPrefixOf argument.toList).map
    fun argument => argument.toList.drop start.length

def upToEquals (chars : List Char) : String := String.ofList (chars.takeWhile (· != '='))

/-- The part of an argument that names a place; an empty part counts as not given. -/
def placeArgument? (arguments : List String) (name : String) : Option String :=
  ((argument? arguments name).map upToEquals).filter (!·.isEmpty)

/-- Where a host listens when it is told nothing. -/
def standardPort : String := "8125"

def standardHost : String := "127.0.0.1"

def standardEndpoint : String := "/mcp"

def rooted (path : String) : String :=
  if path.toList.head? == some '/' then path else "/" ++ path

/-- Where a host listens and what it opens. -/
structure Settings where
  /-- The socket number that was asked for, which may be no number at all. -/
  askedPort : Float
  /-- The socket number to listen on. -/
  usedPort : Float
  host : String
  endpoint : String
  /-- The path of a document to open. -/
  document : Option String
  /-- The routine of the document to open, if not its first. -/
  routine : Option String

def Settings.read (arguments : List String) (environment : Environment) : Settings :=
  let usualPort := Decimal.readLeadingWhole
    ((environment portVariable).getD standardPort)
  let usualHost := (environment hostVariable).getD standardHost
  let usualEndpoint := (environment endpointVariable).getD standardEndpoint
  let askedPort :=
    match argument? arguments "port" with
    | some given => Decimal.readLeadingWhole (upToEquals given)
    | none => usualPort
  { askedPort := askedPort
    usedPort := if askedPort.isFinite then askedPort else usualPort
    host := (placeArgument? arguments "host").getD usualHost
    endpoint := rooted ((placeArgument? arguments "endpoint").getD usualEndpoint)
    document := (argument? arguments "l5x").map String.ofList
    routine := (argument? arguments "routine").map String.ofList }

def Settings.site (settings : Settings) : String :=
  "http://" ++ settings.host ++ ":" ++ Decimal.numberText settings.askedPort

/-- Why the environment gives no configuration. -/
inductive ConfigError
  | variableError (error : LayoutConfig.VariableError)
  | issues (issues : List Issue)

def ConfigError.message : ConfigError → String
  | .variableError error => error.message
  | .issues found => reportIssues found

def readConfig (environment : Environment) : Except ConfigError (LayoutConfig Float) :=
  match LayoutConfig.environmentReplacements environment with
  | .error error => .error (.variableError error)
  | .ok replacements => (LayoutConfig.resolve replacements).mapError .issues

end Host
end LadderDiagram
