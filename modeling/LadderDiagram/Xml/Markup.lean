import LadderDiagram.Text.Blank
import LadderDiagram.Text.Units
import LadderDiagram.Xml.Attribute
import LadderDiagram.Xml.Node

/-!
# Markup

Reading cuts a document into pieces: stretches of text, tags, instructions to
processors and character sections.  Comments and the document type are left
out.  A piece that is not ended breaks off the list.
-/

namespace LadderDiagram
namespace Xml

/-- What was begun and never ended. -/
inductive Unended
  | closingTag
  | openingTag
  | instruction
  | comment
  | characters
  | documentType
  deriving DecidableEq, Repr

/-- A tag's name and its attributes, with their references as they are written. -/
structure TagHead where
  name : String
  attributes : List (String × List Char)
  deriving DecidableEq, Repr

/-- A piece of a document. -/
inductive Piece
  | text (chars : List Char)
  | opening (head : TagHead)
  | empty (head : TagHead)
  | closing
  | instruction (head : TagHead)
  | characters (text : String)
  /-- An opening tag with a name that no element may bear. -/
  | reserved (name : String)
  | unended (part : Unended)
  deriving DecidableEq, Repr

/--
The text up to a mark that stands in no quotes, with tabs outside quotes made
spaces, and what follows the mark.
-/
def takeHead (mark : List Char) (quote? : Option Char) :
    List Char → Option (List Char × List Char)
  | [] => none
  | char :: rest =>
      match quote? with
      | some quote =>
          (takeHead mark (if char == quote then none else some quote) rest).map
            fun (head, after) => (char :: head, after)
      | none =>
          if mark.isPrefixOf (char :: rest) then some ([], rest.drop (mark.length - 1))
          else if char == '"' || char == '\'' then
            (takeHead mark (some char) rest).map fun (head, after) => (char :: head, after)
          else
            (takeHead mark none rest).map fun (head, after) =>
              ((if char == '\t' then ' ' else char) :: head, after)

theorem length_after_head {mark chars head after : List Char} {quote? : Option Char}
    (found : takeHead mark quote? chars = some (head, after)) :
    after.length ≤ chars.length := by
  induction chars generalizing quote? head with
  | nil => simp [takeHead] at found
  | cons char rest ih =>
      have inner : ∀ (change : List Char → List Char) {quote? : Option Char},
          (takeHead mark quote? rest).map (fun parts => (change parts.1, parts.2)) =
            some (head, after) → after.length ≤ (char :: rest).length := by
        intro change quote? eq
        obtain ⟨parts, deeper, eq⟩ := Option.map_eq_some_iff.1 eq
        obtain ⟨_, rfl⟩ := Prod.mk.inj eq
        exact Nat.le_succ_of_le (@ih parts.1 quote? deeper)
      cases quote? with
      | some quote => exact inner (char :: ·) found
      | none =>
          simp only [takeHead] at found
          split at found
          · obtain ⟨_, rfl⟩ := Prod.mk.inj (Option.some.inj found)
            simp only [List.length_drop, List.length_cons]
            omega
          · split at found
            · exact inner (char :: ·) found
            · exact inner ((if char == '\t' then ' ' else char) :: ·) found

/-- An attribute with its value trimmed. -/
def readAttribute (raw : List Char × List Char) : String × List Char :=
  (String.ofList raw.1, Text.trimChars raw.2)

namespace TagHead

/-- The name of a head and the text behind the blank that ends it. -/
def split (head : List Char) : List Char × List Char :=
  (head.takeWhile (!Text.isBlank ·),
    Text.trimStart ((head.dropWhile (!Text.isBlank ·)).drop 1))

/--
The head with a name and the text of its attributes; a text that only repeats
the name holds none.
-/
def read (name attributes : List Char) : TagHead :=
  ⟨String.ofList name,
    if attributes == name then [] else (rawAttributes attributes).map readAttribute⟩

end TagHead

/--
The piece of a tag that opens an element.  A stroke at the end of its head makes
the element empty; a stroke at the end of its name makes it one without
attributes too.
-/
def Piece.ofHead (head : List Char) : Piece :=
  let (name, attributes) := TagHead.split head
  if isReserved (String.ofList name) then .reserved (String.ofList name)
  else if head.all (!Text.isBlank ·) then
    if head.getLast? == some '/' then .empty (.read head.dropLast []) else .opening (.read head [])
  else if attributes.getLast? == some '/' then
    if name.getLast? == some '/' then .empty (.read name.dropLast [])
    else .empty (.read name attributes.dropLast)
  else .opening (.read name attributes)

def Piece.ofInstruction (head : List Char) : Piece :=
  let (name, attributes) := TagHead.split head
  .instruction (.read name attributes)

/-- The number of units that begin a character section. -/
def sectionStart : Nat := Text.unitLength "<![CDATA[".toList

/--
The text of a character section that ends after `before`.  A section that ends
within its own beginning holds what is left of that beginning.
-/
def sectionText (before whole : List Char) : String :=
  let length := Text.unitLength before
  if sectionStart ≤ length then String.ofList (Text.dropUnits sectionStart before)
  else String.ofList (Text.dropUnits length (Text.takeUnits sectionStart whole))

/-- The pieces of a document, whose line ends are line feeds. -/
def pieces : List Char → List Piece
  | [] => []
  | '<' :: '/' :: rest =>
      match _found : Text.splitAtMark ['>'] rest with
      | some (_, after) => .closing :: pieces after
      | none => [.unended .closingTag]
  | '<' :: '?' :: rest =>
      match _found : takeHead ['?', '>'] none ('?' :: rest) with
      | some (head, after) => .ofInstruction head :: pieces after
      | none => [.unended .instruction]
  | '<' :: '!' :: '-' :: '-' :: rest =>
      match _found : Text.splitAtMark ['-', '-', '>'] rest with
      | some (_, after) => pieces after
      | none => [.unended .comment]
  | '<' :: '!' :: 'D' :: rest =>
      if "OCTYPE".toList.isPrefixOf rest then pieces (Text.dropPast ['>'] rest)
      else [.unended .documentType]
  | '<' :: '!' :: '[' :: rest =>
      match _found : Text.splitAtMark [']', ']', '>'] ('<' :: '!' :: '[' :: rest) with
      | some (before, after) =>
          .characters (sectionText before ('<' :: '!' :: '[' :: rest)) :: pieces after
      | none => [.unended .characters]
  | '<' :: rest =>
      match _found : takeHead ['>'] none rest with
      | some (head, after) => .ofHead head :: pieces after
      | none => [.unended .openingTag]
  | char :: rest =>
      .text (char :: rest.takeWhile (· != '<')) :: pieces (rest.dropWhile (· != '<'))
termination_by chars => chars.length
decreasing_by
  · have := Text.length_after_mark _found
    simp only [List.length_cons]
    omega
  · have := length_after_head _found
    simp only [List.length_cons] at this ⊢
    omega
  · have := Text.length_after_mark _found
    simp only [List.length_cons]
    omega
  · have := Text.length_dropPast_le ['>'] rest
    simp only [List.length_cons]
    omega
  · have := congrArg List.length (Text.eq_of_splitAtMark _found)
    simp only [List.length_append, List.length_cons] at this ⊢
    omega
  · have := length_after_head _found
    simp only [List.length_cons]
    omega
  · have := Text.length_dropWhile_le (· != '<') rest
    simp only [List.length_cons]
    omega

end Xml
end LadderDiagram
