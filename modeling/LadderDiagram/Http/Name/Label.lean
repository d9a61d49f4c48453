import LadderDiagram.Http.Name.Composition
import LadderDiagram.Http.Name.DirectionTable
import LadderDiagram.Http.Name.FoldTable
import LadderDiagram.Http.Name.Punycode
import LadderDiagram.Text.Line

/-!
# Folding and labels

Capitals and small letters, and characters that only look different, make no two
names: a name is folded before anything is asked of it.  Some characters may stand
in no name, and some do not count.

A name consists of labels.  A label within ASCII is good as it is unless it says
that it is encoded.  Any other label starts with no mark, has joiners only where
there is something to join, and is read from one side.
-/

namespace LadderDiagram
namespace Http

/-! ### Folding -/

/-- The rows of all characters that are listed with their texts. -/
def foldRows : List FoldRow :=
  foldedSigns ++ foldedSquares ++ foldedForms ++ foldedBeyond

def listedText? (char : Char) : Option (List Char) := do
  let row ← foldRows.find? fun row => row.first ≤ char.toNat && char.toNat ≤ row.last
  let text ← (Text.splitOnChar '|' row.texts.toList)[char.toNat - row.first]?
  if text.isEmpty then none else some text

/-- The text that is written for a character, if the character may stand in a name. -/
def foldChar? (char : Char) : Option (List Char) :=
  if Text.isWithin refusedRanges char then none
  else if Text.isWithin ignoredRanges char then some []
  else
    match Text.shift? foldShifts char with
    | some other => some [other]
    | none => some ((listedText? char).getD [char])

/-- A name as it is meant, if all its characters may stand in a name. -/
def foldName? (written : List Char) : Option (List Char) :=
  (written.mapM foldChar?).map fun texts => compose texts.flatten

/-! ### Labels -/

def isAscii (char : Char) : Bool := char.toNat < 0x80

/-- From which side a character is read. -/
inductive Direction
  | left
  | right
  | digit
  | rightDigit
  | mark
  | neutral
  deriving DecidableEq, Repr

/-- The direction of a character; most letters are read from the left. -/
def direction (char : Char) : Direction :=
  if Text.isWithin markRanges char && !Text.isWithin spacingMarkRanges char then .mark
  else if Text.isWithin rightRanges char then .right
  else if Text.isWithin rightDigitRanges char then .rightDigit
  else if Text.isWithin digitRanges char then .digit
  else if Text.isWithin neutralRanges char then .neutral
  else .left

/-- Whether something of a direction belongs to what is read from the right. -/
def Direction.isRight (direction : Direction) : Bool :=
  direction == .right || direction == .rightDigit

/--
Whether a label is read from one side.  One that starts from the left holds nothing
that is read from the right, but for its end.  One that starts otherwise holds
nothing that is read from the left, ends with a letter or a digit, and has digits
of one kind.  Marks at the end do not count.
-/
def hasOneSide (label : List Char) : Bool :=
  let directions := label.map direction
  let counted := (directions.reverse.dropWhile (· == .mark)).reverse
  if !directions.any Direction.isRight then true
  else if directions.head? == some .left then counted.dropLast.all (!·.isRight)
  else
    counted.all (· != .left) &&
      counted.getLast?.any (fun last => last.isRight || last == .digit) &&
      !(counted.contains .digit && counted.contains .rightDigit)

/-- The sign that keeps two letters from joining. -/
def nonJoiner : Char := '\u200C'

/-- The sign that makes two letters join. -/
def joiner : Char := '\u200D'

/-- The class of the marks that take the vowel from a letter. -/
def viramaClass : Nat := 9

/--
Whether the first joiner of a label has something to join, if there is one: it stands
behind a letter without a vowel, or keeps letters apart that join.
-/
def firstJoinerFits? (label : List Char) : Option Bool :=
  let isJoiner (char : Char) : Bool := char == nonJoiner || char == joiner
  let before := label.takeWhile (!isJoiner ·)
  match label.dropWhile (!isJoiner ·) with
  | [] => none
  | sign :: after =>
      some (before.getLast?.any (combiningClass · == viramaClass) ||
        (sign == nonJoiner && before.any (Text.isWithin joiningOnRanges) &&
          after.any (Text.isWithin joiningBackRanges)))

/-- Whether characters that are not all of ASCII make a label. -/
def isWideLabel (label : List Char) : Bool :=
  !label.head?.any (Text.isWithin markRanges) &&
    (firstJoinerFits? label).getD (hasOneSide label)

def encodedSign : List Char := "xn--".toList

/-- Whether what stands behind the sign is the encoding of a label, and of one that needs it. -/
def isEncodedLabel (encoded : List Char) : Bool :=
  encoded.all isAscii && !encodedSign.isPrefixOf encoded &&
    (decodeLabel? encoded).any fun label =>
      !label.all isAscii && foldName? label == some label && isWideLabel label

def isLabel (label : List Char) : Bool :=
  if encodedSign.isPrefixOf label then isEncodedLabel (label.drop encodedSign.length)
  else label.all isAscii || isWideLabel label

end Http
end LadderDiagram
