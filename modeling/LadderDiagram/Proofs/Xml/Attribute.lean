import LadderDiagram.Proofs.Xml.Reference
import LadderDiagram.Xml.Attribute
import LadderDiagram.Xml.Printer

/-!
# Attributes that are written

The names of elements and attributes are words of letters and digits.  So the text behind a
tag's name is a list of words with escaped values in double quotes: no name in it is at fault,
and reading finds the names with their written values.
-/

namespace LadderDiagram
namespace Xml

/-- A word: a letter, and letters and digits behind it. -/
def isWord : List Char → Bool
  | [] => false
  | first :: rest => first.isAlpha && rest.all Char.isAlphanum

section Words

variable {word : List Char}

theorem isAlphanum_of_isAlpha {char : Char} (letter : char.isAlpha) : char.isAlphanum := by
  rw [Char.isAlphanum, letter, Bool.true_or]

theorem exists_of_isWord (isWord : isWord word) :
    ∃ first rest, word = first :: rest ∧ first.isAlpha ∧ ∀ char ∈ rest, char.isAlphanum := by
  cases word with
  | nil => cases isWord
  | cons first rest =>
      obtain ⟨letter, others⟩ := Bool.and_eq_true_iff.mp isWord
      exact ⟨first, rest, rfl, letter, List.all_eq_true.mp others⟩

theorem isAlphanum_of_isWord (isWord : isWord word) : ∀ char ∈ word, char.isAlphanum := by
  obtain ⟨first, rest, rfl, letter, others⟩ := exists_of_isWord isWord
  exact List.forall_mem_cons.mpr ⟨isAlphanum_of_isAlpha letter, others⟩

/-- No sign is part of a word. -/
theorem not_mem_of_isWord (isWord : isWord word) {sign : Char}
    (isSign : sign.isAlphanum = false) : sign ∉ word := by
  intro member
  rw [isAlphanum_of_isWord isWord sign member] at isSign
  cases isSign

theorem not_isBlank_of_isWord (isWord : isWord word) : ∀ char ∈ word, Text.isBlank char = false :=
  fun char member => Text.not_isBlank_of_isAlphanum (isAlphanum_of_isWord isWord char member)

theorem inAttributeName_of_isWord (isWord : isWord word) :
    ∀ char ∈ word, inAttributeName char = true := by
  intro char member
  have other : char ≠ '=' := by
    rintro rfl
    exact not_mem_of_isWord isWord rfl member
  simp [inAttributeName, not_isBlank_of_isWord isWord char member, other]

theorem isName_of_isWord (isWord : isWord word) : isName word = true := by
  obtain ⟨first, rest, rfl, letter, others⟩ := exists_of_isWord isWord
  have starts : startsName first = true := by simp [startsName, letter]
  have continues : rest.all continuesName = true := by
    apply List.all_eq_true.mpr
    intro char member
    rcases Bool.or_eq_true_iff.mp (others char member) with isLetter | isDigit
    · simp [continuesName, startsName, isLetter]
    · simp [continuesName, isDigit]
  simp [isName, starts, continues]

end Words

/-! ### The text behind a tag's name -/

/-- An attribute as it is written, with the space in front of it. -/
def attributeChars (field : String × String) : List Char :=
  ' ' :: (field.1.toList ++ '=' :: '"' :: (escape field.2.toList ++ ['"']))

def attributesChars (attributes : List (String × String)) : List Char :=
  attributes.flatMap attributeChars

theorem toList_headText (name : String) (attributes : List (String × String)) :
    (headText name attributes).toList = name.toList ++ attributesChars attributes := by
  rw [headText, String.toList_append, String.toList_join, List.flatMap_map, attributesChars]
  congr 2
  funext field
  simp [attributeText, attributeChars]

/-- The names of attributes are different words. -/
structure AreWritten (attributes : List (String × String)) : Prop where
  words : ∀ field ∈ attributes, isWord field.1.toList
  distinct : (attributes.map fun field => field.1.toList).Nodup

theorem AreWritten.of_names {attributes : List (String × String)} (names : List String)
    (isNames : attributes.map (·.1) = names) (words : ∀ name ∈ names, isWord name.toList)
    (distinct : (names.map String.toList).Nodup) : AreWritten attributes := by
  subst isNames
  rw [List.map_map] at distinct
  exact ⟨fun field member => words _ (List.mem_map_of_mem member), distinct⟩

theorem trimStart_of_not_isBlank {char : Char} (solid : Text.isBlank char = false)
    (rest : List Char) : Text.trimStart (char :: rest) = char :: rest :=
  List.dropWhile_cons_of_neg (by simp [solid])

theorem not_mem_escape_quote (chars : List Char) : '"' ∉ escape chars := by
  intro member
  exact absurd (not_isEscaped_of_mem_escape member (by decide)) (by decide)

/-- A written value is taken up to its closing quote. -/
theorem takeQuoted_escape (value rest : List Char) :
    takeQuoted ('"' :: (escape value ++ '"' :: rest)) = some (escape value, rest) := by
  unfold takeQuoted
  rw [trimStart_of_not_isBlank (by decide)]
  exact Text.splitAtMark_singleton (not_mem_escape_quote value) rest

theorem takeEquals_cons (rest : List Char) : takeEquals ('=' :: rest) = some rest := by
  unfold takeEquals
  rw [trimStart_of_not_isBlank (by decide)]
  rfl

theorem takeWhile_append_equals {word : List Char}
    (inName : ∀ char ∈ word, inAttributeName char = true) (rest : List Char) :
    (word ++ '=' :: rest).takeWhile inAttributeName = word := by
  rw [List.takeWhile_append_of_pos inName, List.takeWhile_cons_of_neg (by decide), List.append_nil]

theorem dropWhile_append_equals {word : List Char}
    (inName : ∀ char ∈ word, inAttributeName char = true) (rest : List Char) :
    (word ++ '=' :: rest).dropWhile inAttributeName = '=' :: rest := by
  rw [List.dropWhile_append_of_pos inName, List.dropWhile_cons_of_neg (by decide)]

theorem attributesChars_cons (field : String × String) (rest : List (String × String)) :
    attributesChars (field :: rest) =
      ' ' :: (field.1.toList ++ '=' :: '"' ::
        (escape field.2.toList ++ '"' :: attributesChars rest)) := by
  simp [attributesChars, attributeChars]

section Reading

variable {word : List Char}

theorem rawAttributes_word (isWord : isWord word) (value more : List Char) :
    rawAttributes (word ++ '=' :: '"' :: (escape value ++ '"' :: more)) =
      (word, escape value) :: rawAttributes more := by
  have inName := inAttributeName_of_isWord isWord
  obtain ⟨first, rest, rfl, _, _⟩ := exists_of_isWord isWord
  obtain ⟨inFirst, inRest⟩ := List.forall_mem_cons.mp inName
  have valued : takeValue ((rest ++ '=' :: '"' :: (escape value ++ '"' :: more)).dropWhile
      inAttributeName) = some (escape value, more) := by
    rw [dropWhile_append_equals inRest, takeValue, takeEquals_cons]
    exact takeQuoted_escape value more
  rw [List.cons_append]
  conv_lhs => unfold rawAttributes
  rw [if_pos inFirst]
  split
  next own after isOwn =>
    rw [valued] at isOwn
    cases isOwn
    rw [takeWhile_append_equals inRest]
  next none =>
    rw [valued] at none
    cases none

theorem rawAttributes_space (chars : List Char) :
    rawAttributes (' ' :: chars) = rawAttributes chars := by
  conv_lhs => unfold rawAttributes
  rw [if_neg (by decide)]

/-- Reading finds the names that are written, with their written values. -/
theorem rawAttributes_attributesChars {attributes : List (String × String)}
    (words : ∀ field ∈ attributes, isWord field.1.toList) :
    rawAttributes (attributesChars attributes) =
      attributes.map fun field => (field.1.toList, escape field.2.toList) := by
  induction attributes with
  | nil => exact rawAttributes_nil
  | cons field rest ih =>
      obtain ⟨isWord, others⟩ := List.forall_mem_cons.mp words
      rw [attributesChars_cons, rawAttributes_space, rawAttributes_word isWord, ih others,
        List.map_cons]

/-- A written attribute is spaced, and its name has an equals sign and a value. -/
theorem exists_writtenAttributes_word (isWord : isWord word) (value more : List Char) :
    ∃ place, writtenAttributes
        (' ' :: (word ++ '=' :: '"' :: (escape value ++ '"' :: more))) =
      ⟨word, true, true, true, place⟩ :: writtenAttributes more := by
  have inName := inAttributeName_of_isWord isWord
  have solid := not_isBlank_of_isWord isWord
  have noEquals : '=' ∉ word := not_mem_of_isWord isWord rfl
  obtain ⟨first, rest, rfl, _, _⟩ := exists_of_isWord isWord
  obtain ⟨_, inRest⟩ := List.forall_mem_cons.mp inName
  have starts : Text.trimStart
      (' ' :: (first :: rest ++ '=' :: '"' :: (escape value ++ '"' :: more))) =
        first :: (rest ++ '=' :: '"' :: (escape value ++ '"' :: more)) := by
    change List.dropWhile Text.isBlank _ = _
    rw [List.dropWhile_cons_of_pos (by decide)]
    exact trimStart_of_not_isBlank (solid first List.mem_cons_self) _
  have notEquals : ¬ (first == '=') = true := by
    intro same
    exact noEquals (beq_iff_eq.mp same ▸ List.mem_cons_self)
  rw [writtenAttributes]
  split
  next none =>
    rw [starts] at none
    cases none
  next own after isOwn =>
    rw [starts] at isOwn
    cases isOwn
    have behind : afterEquals ((rest ++ '=' :: '"' :: (escape value ++ '"' :: more)).dropWhile
        inAttributeName) = '"' :: (escape value ++ '"' :: more) := by
      rw [afterEquals, dropWhile_append_equals inRest, takeEquals_cons]
      rfl
    have past : afterQuoted ('"' :: (escape value ++ '"' :: more)) = more := by
      rw [afterQuoted, takeQuoted_escape]
      rfl
    rw [if_neg notEquals, takeWhile_append_equals inRest, behind, takeQuoted_escape, past,
      dropWhile_append_equals inRest, takeEquals_cons]
    have spaced : ((' ' :: (first :: rest ++ '=' :: '"' :: (escape value ++ '"' :: more))).length !=
        (first :: (rest ++ '=' :: '"' :: (escape value ++ '"' :: more))).length) = true := by
      simp
    rw [spaced]
    exact ⟨_, rfl⟩

/-- No name that is written is at fault. -/
theorem firstFault_attributesChars {attributes : List (String × String)} {seen : List (List Char)}
    (words : ∀ field ∈ attributes, isWord field.1.toList)
    (distinct : (attributes.map fun field => field.1.toList).Nodup)
    (fresh : ∀ field ∈ attributes, field.1.toList ∉ seen) :
    firstFault seen (writtenAttributes (attributesChars attributes)) = none := by
  induction attributes generalizing seen with
  | nil =>
      rw [attributesChars, List.flatMap_nil, writtenAttributes_nil]
      rfl
  | cons field rest ih =>
      obtain ⟨isWord, others⟩ := List.forall_mem_cons.mp words
      obtain ⟨isFresh, othersFresh⟩ := List.forall_mem_cons.mp fresh
      rw [List.map_cons, List.nodup_cons] at distinct
      obtain ⟨place, written⟩ := exists_writtenAttributes_word isWord field.2.toList
        (attributesChars rest)
      have none : WrittenAttribute.fault? seen ⟨field.1.toList, true, true, true, place⟩ =
          none := by
        simp [WrittenAttribute.fault?, isName_of_isWord isWord, isFresh]
      rw [attributesChars_cons, written, firstFault, none]
      apply ih others distinct.2
      intro other member seenNow
      rcases List.mem_cons.mp seenNow with same | earlier
      · exact distinct.1 (List.mem_map.mpr ⟨other, member, same⟩)
      · exact othersFresh other member earlier

end Reading

end Xml
end LadderDiagram
