import LadderDiagram.Http.Authority

/-!
# Targets of requests

The target of a request is a path, and behind a question mark a query; what
stands behind a number sign does not count, nor do tabs, line ends, and blanks at
the end.  The host may stand in front of the path.  A path is a list of steps
between strokes of either direction; a step of one dot stays where it is and a
step of two goes back.
-/

namespace LadderDiagram
namespace Http

/-- What a request is sent to: a decoded path, and a query that is still encoded. -/
structure Target where
  path : String
  query : List Char

/-- A target without the characters that do not count. -/
def cleaned (written : List Char) : List Char :=
  ((written.filter fun char => ['\t', '\n', '\r'].all (· != char)).reverse.dropWhile
    (· ≤ ' ')).reverse

/--
The steps that are left when those of dots are taken, where some have been taken
before, the last one first.  Dots at the end of a path lead to a place without a
name.
-/
def takeSteps (taken : List (List Char)) : List (List Char) → List (List Char)
  | [] => taken.reverse
  | step :: rest =>
      let meant := percentDecode step
      if meant == ['.'] || meant == ['.', '.'] then
        let reached := if meant == ['.'] then taken else taken.drop 1
        takeSteps (if rest.isEmpty then [] :: reached else reached) rest
      else takeSteps (step :: taken) rest

/-- A step of a path as it is meant; a written stroke does not part steps. -/
def decodeStep (step : List Char) : List Char :=
  let meant := percentDecode step
  if meant.contains '/' then step else meant

/-- Whether a character parts the steps of a path. -/
def isStroke (char : Char) : Bool := char == '/' || char == '\\'

/-- The path that is meant by a written one, which begins with a stroke. -/
def decodePath (written : List Char) : String :=
  let steps := Text.splitOnChar '/' (written.map fun char => if isStroke char then '/' else char)
  String.join ((takeSteps [] (steps.drop 1)).map fun step =>
    "/" ++ String.ofList (decodeStep step))

/-- The target with a path and a query as they are written. -/
def Target.ofPlace (written : List Char) : Target :=
  let chars := written.takeWhile (· != '#')
  ⟨decodePath (chars.takeWhile (· != '?')), percentEncode (Text.dropPast ['?'] chars)⟩

/-- What follows the scheme of a target that names its host. -/
def afterScheme? (written : List Char) : Option (List Char) :=
  (["http://", "https://"].find? fun scheme => scheme.toList.isPrefixOf written).map
    fun scheme => written.drop scheme.length

/-- Reads a target.  Its path may leave out its first stroke where no host is named. -/
def Target.read? (written : String) : Option Target :=
  match afterScheme? written.toList with
  | some rest =>
      let named := (cleaned rest).dropWhile isStroke
      let isInside (char : Char) : Bool := !isStroke char && char != '?' && char != '#'
      if isAuthority (named.takeWhile isInside) then some (.ofPlace (named.dropWhile isInside))
      else none
  | none =>
      match written.toList with
      | '/' :: rest => some (.ofPlace ('/' :: cleaned rest))
      | chars => some (.ofPlace ('/' :: cleaned chars))

end Http
end LadderDiagram
