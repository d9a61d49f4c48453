import LadderDiagram.Http.Name.CompositionTable
import LadderDiagram.Http.Name.MarkTable
import LadderDiagram.Text.Range

/-!
# Composition

A character with marks on it can be written in several ways: with one character for
some of them, and with the marks in another order.  A name is written in one way
only, with its marks in order and with as few characters as can be.  Syllables of
Korean letters are composed by counting; all other pairs are listed.
-/

namespace LadderDiagram
namespace Http

/-- The class of a mark, by which the marks on a character are ordered, or zero. -/
def combiningClass (char : Char) : Nat :=
  ((combiningRows.find? fun (_, ranges) => Text.isWithin ranges char).map (·.1)).getD 0

/-- The pairs of characters that a text holds one after the other, with a mark. -/
def markPairs (mark : Char) : List Char → List (Char × Char × Char)
  | base :: whole :: rest => (base, mark, whole) :: markPairs mark rest
  | _ => []

/-- Two characters and the one that stands for both, for all that are listed. -/
def compositions : List (Char × Char × Char) :=
  (compositionRows.flatMap fun row => markPairs (Char.ofNat row.mark) row.pairs.toList) ++
    compositionTriples.map fun (base, mark, whole) =>
      (Char.ofNat base, Char.ofNat mark, Char.ofNat whole)

def runIndex? (first length : Nat) (char : Char) : Option Nat :=
  if first ≤ char.toNat && char.toNat < first + length then some (char.toNat - first) else none

def leadCount : Nat := 19

def vowelCount : Nat := 21

/-- How many ends a Korean syllable may have; one of them is to have none. -/
def tailCount : Nat := 28

def firstLead : Nat := 0x1100

def firstVowel : Nat := 0x1161

/-- The character in front of the letters that may end a Korean syllable. -/
def beforeTails : Nat := 0x11A7

def firstSyllable : Nat := 0xAC00

def syllableIndex? : Char → Option Nat :=
  runIndex? firstSyllable (leadCount * vowelCount * tailCount)

def syllable? (front back : Char) : Option Char :=
  match runIndex? firstLead leadCount front, runIndex? firstVowel vowelCount back with
  | some lead, some vowel =>
      some (Char.ofNat (firstSyllable + (lead * vowelCount + vowel) * tailCount))
  | _, _ =>
      match syllableIndex? front, runIndex? (beforeTails + 1) (tailCount - 1) back with
      | some index, some tail =>
          if index % tailCount == 0 then some (Char.ofNat (front.toNat + tail + 1)) else none
      | _, _ => none

def pairComposed? (front back : Char) : Option Char :=
  match syllable? front back with
  | some whole => some whole
  | none =>
      (compositions.find? fun (base, mark, _) => base == front && mark == back).map (·.2.2)

def syllableLetters (index : Nat) : List Char :=
  let tail := index % tailCount
  [Char.ofNat (firstLead + index / (vowelCount * tailCount)),
    Char.ofNat (firstVowel + index / tailCount % vowelCount)] ++
    (if tail == 0 then [] else [Char.ofNat (beforeTails + tail)])

/-- The most marks that one character has on it. -/
def marksLimit : Nat := 3

/-- The characters of which a character is composed, with that many marks at most. -/
def decomposeChar : Nat → Char → List Char
  | 0, char => [char]
  | depth + 1, char =>
      match syllableIndex? char with
      | some index => syllableLetters index
      | none =>
          match compositions.find? fun (_, _, whole) => whole == char with
          | some (base, mark, _) => decomposeChar depth base ++ [mark]
          | none => [char]

/-- Puts a mark in front of marks that are in order, behind those of lower classes. -/
def insertMark (char : Char) : List Char → List Char
  | [] => [char]
  | next :: rest =>
      if 0 < combiningClass next && combiningClass next < combiningClass char then
        next :: insertMark char rest
      else char :: next :: rest

/-- The characters of which a text is composed, with the marks on each in order. -/
def decompose (chars : List Char) : List Char :=
  (chars.flatMap (decomposeChar marksLimit)).foldr insertMark []

/--
Composes a character with what follows it.  Of the marks that stay on it those that
have been passed are kept with the last one first; only a mark of a higher class than
the last of them still touches the character.
-/
def composeFrom (char : Char) (passed : List Char) : List Char → List Char
  | [] => char :: passed.reverse
  | next :: rest =>
      let reached := passed.head?.all fun mark => combiningClass mark < combiningClass next
      match if reached then pairComposed? char next else none with
      | some whole => composeFrom whole passed rest
      | none =>
          if combiningClass next == 0 then
            char :: passed.reverse ++ composeFrom next [] rest
          else composeFrom char (next :: passed) rest

/-- The one way in which a text is written. -/
def compose (chars : List Char) : List Char :=
  match decompose chars with
  | [] => []
  | char :: rest => composeFrom char [] rest

end Http
end LadderDiagram
