import LadderDiagram.Proofs.Xml.Building

/-!
# Documents that can be read

Whether a document can be read at all depends on little: which tags are open, how much text has
been collected, and how many references have been counted.  That much of a builder is its
standing, and a standing decides of each piece whether it can be taken.  From there on the nodes
play no part, and what can be read is a matter of how the pieces are nested and of how many
references their texts hold.
-/

namespace LadderDiagram
namespace Xml

/-! ### References of a text -/

/-- The number of counted references in a text as it is written. -/
def textReferences (chars : List Char) : Nat := referenceCount (referred chars)

def TagHead.references (head : TagHead) : Nat :=
  (head.attributes.map fun field => textReferences field.2).sum

/-- The references of a text that a tag ends, unless it stands between the document's own nodes. -/
def keptReferences (names : List String) (pending : List Char) : Nat :=
  if names.head?.any (· != documentName) then textReferences (Text.trimChars pending) else 0

/-! ### Standings -/

/-- What of a builder decides whether it can take what follows. -/
structure Standing where
  /-- The names of the open elements, innermost first. -/
  names : List String
  closed : Bool
  pending : List Char
  references : Nat

namespace Standing

/-- A standing without text since the last tag. -/
def settled (standing : Standing) : Standing := { standing with pending := [] }

/-- The standing behind further references, if a document may hold as many. -/
def count (standing : Standing) (number : Nat) : Option Standing :=
  if standing.references + number ≤ mostReferences then
    some { standing with references := standing.references + number }
  else none

def textCount (standing : Standing) : Nat := textReferences (Text.trimChars standing.pending)

def keptCount (standing : Standing) : Nat := keptReferences standing.names standing.pending

def enter (standing : Standing) (name : String) : Standing :=
  { standing with names := name :: standing.names }

def close (standing : Standing) : Standing :=
  match standing.names with
  | [] => { standing with closed := true }
  | _ :: outer => { standing with names := outer }

/-- Whether no element may be opened. -/
def isFull (standing : Standing) : Bool :=
  standing.closed || decide (deepest < standing.names.length)

/-- What a piece makes of a standing that can take it. -/
def take (standing : Standing) : Piece → Option Standing
  | .text chars => some { standing with pending := standing.pending ++ chars }
  | .opening head =>
      if standing.isFull then none
      else (standing.settled.count (standing.keptCount + head.references)).bind fun after =>
        some (after.enter head.name)
  | .empty head =>
      if standing.closed then none
      else standing.settled.count (standing.keptCount + head.references)
  | .closing =>
      if standing.closed then some standing.settled
      else (standing.settled.count standing.textCount).map close
  | .instruction head =>
      if standing.closed then none
      else standing.settled.count (standing.textCount + head.references)
  | .characters _ =>
      if standing.closed then none else standing.settled.count standing.textCount
  | .reserved _ | .unended _ => none

def takeAll (standing : Standing) : List Piece → Option Standing
  | [] => some standing
  | piece :: rest => (standing.take piece).bind (·.takeAll rest)

end Standing

/-! ### The standing of a builder -/

namespace Builder

def standing (builder : Builder) : Standing :=
  ⟨builder.opened.map (·.name), builder.closed, builder.pending, builder.references⟩

section Outcomes

variable {builder : Builder} (few : builder.references ≤ mostReferences)

include few

end Outcomes

end Builder

/-! ### Nested pieces -/

/-- Whether a piece may stand behind a closing tag that closes the document itself. -/
def Piece.isTrailing : Piece → Bool
  | .text _ | .closing => true
  | _ => false

/-- Whether a piece neither opens nor closes an element. -/
def Piece.isFlat : Piece → Bool
  | .text _ | .empty _ | .instruction _ | .characters _ => true
  | _ => false

/-- Pieces that can stand where so many elements are open. -/
inductive AreNested : Nat → List Piece → Prop
  | nil {opened : Nat} : AreNested opened []
  | flat {opened : Nat} {piece : Piece} {rest : List Piece} :
      piece.isFlat → AreNested opened rest → AreNested opened (piece :: rest)
  | opening {opened : Nat} {head : TagHead} {rest : List Piece} :
      opened ≤ deepest → AreNested (opened + 1) rest → AreNested opened (.opening head :: rest)
  | closing {opened : Nat} {rest : List Piece} :
      AreNested opened rest → AreNested (opened + 1) (.closing :: rest)
  /-- A closing tag too many closes the document, and nothing more can be added to it. -/
  | surplus {rest : List Piece} :
      (∀ piece ∈ rest, piece.isTrailing) → AreNested 0 (.closing :: rest)

section AreNested

variable {opened : Nat} {piece : Piece} {rest : List Piece}

end AreNested

/--
The references in the texts and attributes of pieces, behind open elements and collected text.
The text in front of a tag that opens an element is dropped between the document's own nodes, and
nothing is counted behind a tag that closes the document.
-/
def referencesWithin (names : List String) (pending : List Char) : List Piece → Nat
  | [] => 0
  | .text chars :: rest => referencesWithin names (pending ++ chars) rest
  | .opening head :: rest =>
      keptReferences names pending + head.references + referencesWithin (head.name :: names) [] rest
  | .empty head :: rest =>
      keptReferences names pending + head.references + referencesWithin names [] rest
  | .instruction head :: rest =>
      textReferences (Text.trimChars pending) + head.references + referencesWithin names [] rest
  | .characters _ :: rest =>
      textReferences (Text.trimChars pending) + referencesWithin names [] rest
  | .closing :: rest =>
      textReferences (Text.trimChars pending) +
        match names with
        | [] => 0
        | _ :: outer => referencesWithin outer [] rest
  | .reserved _ :: _ | .unended _ :: _ => 0

namespace Standing

variable {standing : Standing}

end Standing

/-! ### Documents -/

/-- Whether the pieces of a document can be read: they are nested, and few enough are references. -/
def IsReadable (pieces : List Piece) : Prop :=
  AreNested 0 pieces ∧ referencesWithin [] [] pieces ≤ mostReferences

end Xml
end LadderDiagram
