import LadderDiagram.Xml.Markup
import LadderDiagram.Xml.Reference

/-!
# Reading a document into a tree

The pieces of a document are taken one after the other by a builder with a
stack of open elements.  Text is collected across comments and becomes a value
where a tag ends it.  A closing tag closes the innermost element whatever its
name, and elements that are still open at the end count as closed there.
-/

namespace LadderDiagram
namespace Xml

/-- What a piece looks for when no element is open to take it. -/
inductive Wanted
  | childList
  | addedChild
  | elementName
  deriving DecidableEq, Repr

/-- Why a document cannot be read. -/
inductive TreeFault
  | unended (part : Unended)
  | reservedName (name : String)
  /-- The references counted up to the first that are too many. -/
  | tooManyReferences (count : Nat)
  | tooDeep
  | outside (wanted : Wanted)
  deriving DecidableEq, Repr

/-- The property whose absence a message reports. -/
def Wanted.property : Wanted → String
  | .childList => "child"
  | .addedChild => "addChild"
  | .elementName => "tagname"

/-- The message about a property of a value that is missing. -/
def missingProperty (property : String) : String :=
  "Cannot read properties of undefined (reading '" ++ property ++ "')"

def TreeFault.message : TreeFault → String
  | .unended .closingTag => "Closing Tag is not closed."
  | .unended .openingTag => missingProperty "tagName"
  | .unended .instruction => "Pi Tag is not closed."
  | .unended .comment => "Comment is not closed."
  | .unended .characters => "CDATA is not closed."
  | .unended .documentType => "Invalid Tag instead of DOCTYPE"
  | .reservedName name => "Invalid tag name: " ++ name
  | .tooManyReferences count =>
      "Entity expansion limit exceeded: " ++ toString count ++ " > " ++ toString mostReferences
  | .tooDeep => "Maximum nested tags exceeded"
  | .outside wanted => missingProperty wanted.property

def documentName : String := "!xml"

/-- The number of elements that may be open when one more is opened. -/
def deepest : Nat := 100

/-- An open element with the children read so far, the last one first. -/
structure OpenElement where
  name : String
  attributes : List (String × String)
  children : List Node

def OpenElement.node (element : OpenElement) : Node :=
  .element element.name element.attributes element.children.reverse

/-- The part of a document that has been read. -/
structure Builder where
  /-- The nodes of the document itself, the last one first. -/
  document : List Node
  /-- The open elements, innermost first. -/
  opened : List OpenElement
  /-- Whether a closing tag has closed the document itself. -/
  closed : Bool
  /-- The text since the last tag. -/
  pending : List Char
  /-- The number of references counted so far. -/
  references : Nat

namespace Builder

def start : Builder := ⟨[], [], false, [], 0⟩

/-- Decodes a text and counts its references. -/
def decoded (builder : Builder) (chars : List Char) : Except TreeFault (List Char × Builder) :=
  match countReferences builder.references chars with
  | .ok references => .ok (decode chars, { builder with references := references })
  | .error count => .error (.tooManyReferences count)

def decodedAttributes (builder : Builder) :
    List (String × List Char) → Except TreeFault (List (String × String) × Builder)
  | [] => .ok ([], builder)
  | (name, written) :: rest => do
      let (value, builder) ← builder.decoded written
      let (attributes, builder) ← builder.decodedAttributes rest
      pure ((name, String.ofList value) :: attributes, builder)

def add (builder : Builder) (node : Node) : Builder :=
  match builder.opened with
  | [] => { builder with document := node :: builder.document }
  | innermost :: outer =>
      { builder with opened := { innermost with children := node :: innermost.children } :: outer }

/-- Makes the collected text a node; text of nothing but blanks is dropped. -/
def flush (builder : Builder) : Except TreeFault Builder :=
  let text := Text.trimChars builder.pending
  let emptied := { builder with pending := [] }
  if text.isEmpty then .ok emptied
  else do
    let (text, counted) ← emptied.decoded text
    pure (counted.add (.value (.ofText text)))

/--
Drops the text between the document's own nodes and keeps any other.  An element
that bears the document's name counts as the document here.
-/
def flushWithin (builder : Builder) : Except TreeFault Builder :=
  if builder.opened.head?.any (·.name != documentName) then builder.flush
  else .ok { builder with pending := [] }

/-- Adds an element without children, for which the document must be open. -/
def addEmpty (builder : Builder) (head : TagHead) : Except TreeFault Builder := do
  let (attributes, builder) ← builder.decodedAttributes head.attributes
  if builder.closed then .error (.outside .addedChild)
  else pure (builder.add (.element head.name attributes []))

/-- Opens an element, for which the document must be open and not too many elements. -/
def openElement (builder : Builder) (head : TagHead) : Except TreeFault Builder := do
  if deepest < builder.opened.length then .error .tooDeep
  else
    let (attributes, builder) ← builder.decodedAttributes head.attributes
    if builder.closed then .error (.outside .addedChild)
    else pure { builder with opened := ⟨head.name, attributes, []⟩ :: builder.opened }

/-- Closes the innermost element, or else the document. -/
def close (builder : Builder) : Builder :=
  match builder.opened with
  | [] => { builder with closed := true }
  | innermost :: outer => { builder with opened := outer }.add innermost.node

def take (builder : Builder) : Piece → Except TreeFault Builder
  | .text chars => .ok { builder with pending := builder.pending ++ chars }
  | .unended part => .error (.unended part)
  | .reserved name => .error (.reservedName name)
  | .closing =>
      if builder.closed then .ok { builder with pending := [] }
      else builder.flush.map close
  | .instruction head =>
      if builder.closed && !builder.pending.isEmpty then .error (.outside .childList)
      else do (← builder.flush).addEmpty head
  | .characters text =>
      if builder.closed then
        .error (.outside (if builder.pending.isEmpty then .elementName else .childList))
      else builder.flush.map (·.add (.characters text))
  | .empty head => do (← builder.flushWithin).addEmpty head
  | .opening head => do (← builder.flushWithin).openElement head

def takeAll (builder : Builder) : List Piece → Except TreeFault Builder
  | [] => .ok builder
  | piece :: rest => do (← builder.take piece).takeAll rest

/-- The nodes of the document, with the open elements closed from within. -/
def nodes (builder : Builder) : List Node :=
  let open? := builder.opened.foldl
    (fun (inner? : Option Node) element =>
      some { element with children := inner?.toList ++ element.children }.node) none
  (open?.toList ++ builder.document).reverse

end Builder

def readTree (document : List Char) : Except TreeFault (List Node) :=
  (Builder.start.takeAll (pieces (Text.withLineFeeds document))).map Builder.nodes

end Xml
end LadderDiagram
