import LadderDiagram.Xml.Node
import LadderDiagram.Xml.Reference

/-!
# Writing documents

Each tag and each character section stands on a line of its own, two spaces
further in than the element around it.  An element without children is one
empty tag.  A character section that holds the mark of its own end is cut in two
there.
-/

namespace LadderDiagram
namespace Xml

def indentation (depth : Nat) : String := String.ofList (List.replicate (2 * depth) ' ')

/-- An attribute with a space in front of it. -/
def attributeText (field : String × String) : String :=
  " " ++ field.1 ++ "=\"" ++ String.ofList (escape field.2.toList) ++ "\""

def headText (name : String) (attributes : List (String × String)) : String :=
  name ++ String.join (attributes.map attributeText)

/-- The text of a character section, cut where its end would be read. -/
def cutSection : List Char → List Char
  | ']' :: ']' :: '>' :: rest => "]]]]><![CDATA[>".toList ++ cutSection rest
  | char :: rest => char :: cutSection rest
  | [] => []

def sectionMarkup (text : String) : String :=
  "<![CDATA[" ++ String.ofList (cutSection text.toList) ++ "]]>"

mutual

def Node.render (depth : Nat) : Node → String
  | .element name attributes [] =>
      indentation depth ++ "<" ++ headText name attributes ++ "/>\n"
  | .element name attributes (first :: more) =>
      indentation depth ++ "<" ++ headText name attributes ++ ">\n" ++
        renderNodes (depth + 1) (first :: more) ++
        indentation depth ++ "</" ++ name ++ ">\n"
  | .characters text => indentation depth ++ sectionMarkup text ++ "\n"
  | .value scalar =>
      indentation depth ++ String.ofList (escape scalar.toText.toList) ++ "\n"

def renderNodes (depth : Nat) : List Node → String
  | [] => ""
  | node :: rest => node.render depth ++ renderNodes depth rest

end

def declaration : String :=
  "<?" ++ headText "xml" [("version", "1.0"), ("encoding", "UTF-8"), ("standalone", "yes")] ++
    "?>\n"

def renderDocument (root : Node) : String := declaration ++ root.render 0

end Xml
end LadderDiagram
