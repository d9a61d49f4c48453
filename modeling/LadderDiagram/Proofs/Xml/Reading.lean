import LadderDiagram.Proofs.Xml.Attribute
import LadderDiagram.Proofs.Xml.Section
import LadderDiagram.Xml.Markup

/-!
# Pieces of what is written

Each tag, section and line of a written document is one piece when it is read: the head of a
tag ends at its own bracket, since no bracket of a value stands outside quotes, and a section
ends at its own mark as long as its text does not hold that mark.
-/

namespace LadderDiagram
namespace Xml

/-! ### Pieces by their first characters -/

theorem pieces_nil : pieces [] = [] := by
  rw [pieces.eq_1]

theorem pieces_closing {name : List Char} (noBracket : '>' ∉ name) (rest : List Char) :
    pieces ('<' :: '/' :: (name ++ '>' :: rest)) = .closing :: pieces rest := by
  have found := Text.splitAtMark_singleton noBracket rest
  rw [pieces.eq_2]
  split
  next own after isOwn =>
    rw [found] at isOwn
    cases isOwn
    rfl
  next none =>
    rw [found] at none
    cases none

theorem pieces_instruction {chars head after : List Char}
    (found : takeHead ['?', '>'] none ('?' :: chars) = some (head, after)) :
    pieces ('<' :: '?' :: chars) = .ofInstruction head :: pieces after := by
  rw [pieces.eq_3]
  split
  next own rest isOwn =>
    rw [found] at isOwn
    cases isOwn
    rfl
  next none =>
    rw [found] at none
    cases none

theorem pieces_letter {first : Char} (letter : first.isAlpha) {rest head after : List Char}
    (found : takeHead ['>'] none (first :: rest) = some (head, after)) :
    pieces ('<' :: first :: rest) = .ofHead head :: pieces after := by
  have notSign {sign : Char} (isSign : sign.isAlpha = false) : first ≠ sign :=
    Text.ne_of_test letter isSign
  have notMark : first ≠ '!' := notSign (by decide)
  rw [pieces.eq_7]
  · split
    next own more isOwn =>
      rw [found] at isOwn
      cases isOwn
      rfl
    next none =>
      rw [found] at none
      cases none
  · exact fun _ same => notSign (by decide) (List.cons.inj same).1
  · exact fun _ same => notSign (by decide) (List.cons.inj same).1
  · exact fun _ same => notMark (List.cons.inj same).1
  · exact fun _ same => notMark (List.cons.inj same).1
  · exact fun _ same => notMark (List.cons.inj same).1

theorem pieces_text {char : Char} (other : char ≠ '<') (rest : List Char) :
    pieces (char :: rest) =
      .text (char :: rest.takeWhile (· != '<')) :: pieces (rest.dropWhile (· != '<')) :=
  pieces.eq_8 char rest (fun _ same _ => other same) (fun _ same _ => other same)
    (fun _ same _ => other same) (fun _ same _ => other same) (fun _ same _ => other same) other

/-! ### Sections -/

/-- The mark ends in a bracket with which it does not begin, so it is found where it is put. -/
theorem splitAtMark_sectionEnd {before : List Char} (whole : ¬ sectionEnd <:+: before)
    (rest : List Char) :
    Text.splitAtMark sectionEnd (before ++ sectionEnd ++ rest) = some (before, rest) := by
  apply Text.splitAtMark_eq
  intro own later isWhole nonempty starts
  match later, nonempty, starts with
  | [first], _, starts => simp [sectionEnd] at starts
  | [first, second], _, starts => simp [sectionEnd] at starts
  | first :: second :: third :: more, _, starts =>
      have begins : sectionEnd <+: first :: second :: third :: more := by
        simpa [sectionEnd] using starts
      exact whole (isWhole ▸ (begins.isInfix.trans (List.suffix_append own _).isInfix))

/-- A section whose text does not hold the mark of its end is read whole. -/
theorem pieces_section {chars : List Char} (whole : ¬ sectionEnd <:+: chars) (rest : List Char) :
    pieces (sectionChars chars ++ rest) = .characters (String.ofList chars) :: pieces rest := by
  have beginning : ¬ sectionEnd <:+: "<![CDATA[".toList ++ chars := by
    intro found
    exact whole (Text.infix_of_infix_append (by decide) found)
  have found := splitAtMark_sectionEnd beginning rest
  have text (document : List Char) :
      sectionText ("<![CDATA[".toList ++ chars) document = String.ofList chars := by
    unfold sectionText
    dsimp only
    rw [if_pos (by rw [Text.unitLength_append]; exact Nat.le_add_right _ _), sectionStart,
      Text.dropUnits_unitLength]
  rw [sectionChars_eq, ← List.append_assoc]
  refine (pieces.eq_6 ("CDATA[".toList ++ chars ++ sectionEnd ++ rest)).trans ?_
  split
  next before after isOwn =>
    obtain ⟨rfl, rfl⟩ := Prod.mk.inj (Option.some.inj (found.symm.trans isOwn))
    rw [text]
  next none => cases found.symm.trans none

/-! ### The head of a tag -/

/-- A text without the mark outside quotes, with its quotes closed and no tab outside them. -/
def IsHeadText (mark chars : List Char) : Prop :=
  ∀ rest, takeHead mark none (chars ++ rest) =
    (takeHead mark none rest).map fun (head, after) => (chars ++ head, after)

section HeadText

variable {mark chars more : List Char}

theorem IsHeadText.nil : IsHeadText mark [] := by
  intro rest
  cases found : takeHead mark none rest <;> simp [found]

theorem IsHeadText.append (first : IsHeadText mark chars) (second : IsHeadText mark more) :
    IsHeadText mark (chars ++ more) := by
  intro rest
  rw [List.append_assoc, first, second, Option.map_map]
  simp [Function.comp_def]

/-- A character that is no quote, no tab and not the first one of the mark. -/
theorem IsHeadText.cons {char : Char} (plain : char ∉ ['"', '\'', '\t'])
    (unmarked : mark.head? ≠ some char) (nonempty : mark ≠ []) (later : IsHeadText mark chars) :
    IsHeadText mark (char :: chars) := by
  intro rest
  have notMark : ¬ mark.isPrefixOf (char :: (chars ++ rest)) = true := by
    obtain ⟨sign, others, rfl⟩ := List.exists_cons_of_ne_nil nonempty
    rw [List.isPrefixOf_iff_prefix]
    exact fun starts => unmarked (congrArg some (List.cons_prefix_cons.mp starts).1)
  simp only [List.mem_cons, List.not_mem_nil, or_false, not_or] at plain
  rw [List.cons_append, takeHead, if_neg notMark, if_neg (by simp [plain]), later]
  simp [plain, Function.comp_def]

theorem IsHeadText.of_forall_mem (nonempty : mark ≠ [])
    (plain : ∀ char ∈ chars, char ∉ ['"', '\'', '\t'] ∧ mark.head? ≠ some char) :
    IsHeadText mark chars := by
  induction chars with
  | nil => exact .nil
  | cons char rest ih =>
      obtain ⟨first, others⟩ := List.forall_mem_cons.mp plain
      exact .cons first.1 first.2 nonempty (ih others)

theorem takeHead_quoted (noQuote : '"' ∉ chars) (rest : List Char) :
    takeHead mark (some '"') (chars ++ '"' :: rest) =
      (takeHead mark none rest).map fun (head, after) => (chars ++ '"' :: head, after) := by
  induction chars with
  | nil => rfl
  | cons char more ih =>
      rw [List.mem_cons, not_or] at noQuote
      have other : ¬ (char == '"') = true := fun same => noQuote.1 (beq_iff_eq.mp same).symm
      rw [List.cons_append, takeHead, if_neg other, ih noQuote.2, Option.map_map]
      rfl

theorem IsHeadText.quoted (unmarked : mark.head? ≠ some '"') (nonempty : mark ≠ [])
    (noQuote : '"' ∉ chars) : IsHeadText mark ('"' :: (chars ++ ['"'])) := by
  intro rest
  have notMark : ¬ mark.isPrefixOf ('"' :: (chars ++ '"' :: rest)) = true := by
    obtain ⟨sign, others, rfl⟩ := List.exists_cons_of_ne_nil nonempty
    rw [List.isPrefixOf_iff_prefix]
    exact fun starts => unmarked (congrArg some (List.cons_prefix_cons.mp starts).1)
  rw [List.cons_append, List.append_assoc, List.singleton_append, takeHead, if_neg notMark,
    if_pos (by decide), takeHead_quoted noQuote, Option.map_map]
  simp [Function.comp_def]

/-- The head of a tag is taken up to the mark behind it. -/
theorem IsHeadText.takeHead_eq (isHead : IsHeadText mark chars) (nonempty : mark ≠ [])
    (rest : List Char) : takeHead mark none (chars ++ (mark ++ rest)) = some (chars, rest) := by
  obtain ⟨sign, others, rfl⟩ := List.exists_cons_of_ne_nil nonempty
  have marked : (sign :: others).isPrefixOf (sign :: (others ++ rest)) = true :=
    List.isPrefixOf_iff_prefix.mpr (List.prefix_append (sign :: others) rest)
  rw [isHead, List.cons_append, takeHead, if_pos marked]
  simp

end HeadText

/-- The mark of the end of a tag or of an instruction. -/
def IsHeadMark (mark : List Char) : Prop := mark = ['>'] ∨ mark = ['?', '>']

theorem IsHeadMark.nonempty {mark : List Char} (isMark : IsHeadMark mark) : mark ≠ [] := by
  rcases isMark with rfl | rfl <;> exact List.cons_ne_nil _ _

theorem IsHeadMark.head?_ne {mark : List Char} (isMark : IsHeadMark mark) {char : Char}
    (other : char ≠ '>' ∧ char ≠ '?') : mark.head? ≠ some char := by
  rcases isMark with rfl | rfl
  · exact fun same => other.1 (Option.some.inj same).symm
  · exact fun same => other.2 (Option.some.inj same).symm

section Heads

variable {mark name : List Char} {attributes : List (String × String)}

theorem isHeadText_of_isWord (isMark : IsHeadMark mark) (isWord : isWord name) :
    IsHeadText mark name := by
  apply IsHeadText.of_forall_mem isMark.nonempty
  intro char member
  have other {sign : Char} (isSign : sign.isAlphanum = false) : char ≠ sign := by
    rintro rfl
    exact not_mem_of_isWord isWord isSign member
  have plain : char ∉ ['"', '\'', '\t'] := by
    simp only [List.mem_cons, List.not_mem_nil, or_false, not_or]
    exact ⟨other (by decide), other (by decide), other (by decide)⟩
  exact ⟨plain, isMark.head?_ne ⟨other (by decide), other (by decide)⟩⟩

theorem isHeadText_attributesChars (isMark : IsHeadMark mark)
    (words : ∀ field ∈ attributes, isWord field.1.toList) :
    IsHeadText mark (attributesChars attributes) := by
  induction attributes with
  | nil => exact .nil
  | cons field rest ih =>
      obtain ⟨isWord, others⟩ := List.forall_mem_cons.mp words
      have value : IsHeadText mark ('"' :: (escape field.2.toList ++ ['"'])) :=
        .quoted (isMark.head?_ne (by decide)) isMark.nonempty
          (not_mem_escape_quote field.2.toList)
      have equated : IsHeadText mark ('=' :: ('"' :: (escape field.2.toList ++ ['"']))) :=
        value.cons (by decide) (isMark.head?_ne (by decide)) isMark.nonempty
      have own : IsHeadText mark (attributeChars field) :=
        ((isHeadText_of_isWord isMark isWord).append equated).cons (by decide)
          (isMark.head?_ne (by decide)) isMark.nonempty
      exact own.append (ih others)

end Heads

/-! ### The piece of a head -/

/-- The head that is read for a written name and attributes. -/
def writtenHead (name : String) (attributes : List (String × String)) : TagHead :=
  ⟨name, attributes.map fun field => (field.1, escape (Text.trimChars field.2.toList))⟩

section Pieces

variable {name : String} {attributes : List (String × String)}

theorem map_readAttribute (name : String)
    (words : ∀ field ∈ attributes, isWord field.1.toList) :
    (rawAttributes (attributesChars attributes)).map readAttribute =
      (writtenHead name attributes).attributes := by
  rw [rawAttributes_attributesChars words, List.map_map, writtenHead]
  apply List.map_congr_left
  intro field _
  simp [readAttribute, trimChars_escape]

theorem getLast?_attributesChars (written : attributes ≠ []) :
    (attributesChars attributes).getLast? = some '"' := by
  obtain ⟨init, last, rfl⟩ := List.eq_nil_or_concat attributes |>.resolve_left written
  rw [List.concat_eq_append, attributesChars, List.flatMap_append, List.flatMap_singleton]
  have closes : attributeChars last =
      (' ' :: (last.1.toList ++ '=' :: '"' :: escape last.2.toList)) ++ ['"'] := by
    simp [attributeChars]
  rw [closes, ← List.append_assoc, List.getLast?_concat]

/-- The text behind the blank that ends a name, where attributes are written. -/
theorem exists_attributesChars (words : ∀ field ∈ attributes, isWord field.1.toList)
    (written : attributes ≠ []) :
    ∃ first rest, attributesChars attributes = ' ' :: first :: rest ∧
      Text.isBlank first = false ∧ '=' ∈ first :: rest ∧ (first :: rest).getLast? = some '"' := by
  have closes := getLast?_attributesChars written
  obtain ⟨field, rest, rfl⟩ := List.exists_cons_of_ne_nil written
  obtain ⟨first, more, isName, _, _⟩ := exists_of_isWord (words field List.mem_cons_self)
  have solid := not_isBlank_of_isWord (words field List.mem_cons_self) first
    (isName ▸ List.mem_cons_self)
  rw [attributesChars_cons, isName, List.cons_append] at closes ⊢
  refine ⟨first, _, rfl, solid, ?_, by rwa [List.getLast?_cons_cons] at closes⟩
  exact List.mem_cons_of_mem _ (List.mem_append_right _ List.mem_cons_self)

theorem split_of_blank {head : List Char} (solid : ∀ char ∈ head, Text.isBlank char = false)
    {first : Char} (solidFirst : Text.isBlank first = false) (rest : List Char) :
    TagHead.split (head ++ ' ' :: first :: rest) = (head, first :: rest) := by
  have all : ∀ char ∈ head, (!Text.isBlank char) = true := by
    intro char member
    rw [solid char member]
    rfl
  rw [TagHead.split, List.takeWhile_append_of_pos all, List.dropWhile_append_of_pos all,
    List.takeWhile_cons_of_neg (by decide), List.dropWhile_cons_of_neg (by decide),
    List.append_nil, List.drop_one, List.tail_cons, trimStart_of_not_isBlank solidFirst]

theorem split_of_solid {head : List Char} (solid : ∀ char ∈ head, Text.isBlank char = false) :
    TagHead.split head = (head, []) := by
  have all : ∀ char ∈ head, (!Text.isBlank char) = true := by
    intro char member
    rw [solid char member]
    rfl
  rw [TagHead.split, List.takeWhile_eq_self_iff.mpr all, List.dropWhile_eq_nil_iff.mpr all]
  rfl

theorem read_nil (isWord : isWord name.toList) :
    TagHead.read name.toList [] = writtenHead name [] := by
  obtain ⟨first, more, isName, _, _⟩ := exists_of_isWord isWord
  have other : ¬ (([] : List Char) == name.toList) = true := by
    rw [isName]
    exact nofun
  rw [TagHead.read, if_neg other, rawAttributes_nil, String.ofList_toList]
  rfl

theorem read_attributesChars (noEquals : '=' ∉ name.toList)
    (words : ∀ field ∈ attributes, isWord field.1.toList) {text : List Char}
    (isText : attributesChars attributes = ' ' :: text) (equated : '=' ∈ text) :
    TagHead.read name.toList text = writtenHead name attributes := by
  have other : ¬ (text == name.toList) = true := by
    intro same
    exact noEquals (beq_iff_eq.mp same ▸ equated)
  have raw : rawAttributes text = rawAttributes (attributesChars attributes) := by
    rw [isText, rawAttributes_space]
  rw [TagHead.read, if_neg other, raw, map_readAttribute name words,
    String.ofList_toList]
  rfl

/-- No name that begins with a letter is reserved. -/
theorem not_isReserved_of_isAlpha {head : List Char} (letter : head.head?.any Char.isAlpha) :
    isReserved (String.ofList head) = false := by
  by_contra reserved
  rw [Bool.not_eq_false, isReserved, Bool.or_eq_true, beq_iff_eq, beq_iff_eq] at reserved
  rcases reserved with isKey | isKey
  all_goals
    rw [← String.toList_ofList (l := head), isKey] at letter
    exact absurd letter (by decide)

theorem head?_any_of_isWord {word : List Char} (isWord : isWord word) (rest : List Char) :
    (word ++ rest).head?.any Char.isAlpha := by
  obtain ⟨first, more, rfl, letter, _⟩ := exists_of_isWord isWord
  exact letter

theorem getLast?_ne_stroke {word : List Char} (isWord : isWord word) :
    ¬ (word.getLast? == some '/') = true := by
  intro stroke
  exact not_mem_of_isWord isWord rfl (List.mem_of_getLast? (beq_iff_eq.mp stroke))

theorem ofHead_opening (isWord : isWord name.toList)
    (words : ∀ field ∈ attributes, Xml.isWord field.1.toList) :
    Piece.ofHead (name.toList ++ attributesChars attributes) =
      .opening (writtenHead name attributes) := by
  have solid := not_isBlank_of_isWord isWord
  have noEquals : '=' ∉ name.toList := not_mem_of_isWord isWord rfl
  have unreserved := not_isReserved_of_isAlpha (head?_any_of_isWord isWord [])
  rw [List.append_nil] at unreserved
  rcases eq_or_ne attributes [] with rfl | written
  · have all : name.toList.all (!Text.isBlank ·) = true := by simpa using solid
    rw [attributesChars, List.flatMap_nil, List.append_nil, Piece.ofHead, split_of_solid solid]
    dsimp only
    rw [unreserved, if_neg Bool.false_ne_true, if_pos all, if_neg (getLast?_ne_stroke isWord),
      read_nil isWord]
  · obtain ⟨first, rest, isText, solidFirst, equated, closes⟩ :=
      exists_attributesChars words written
    have blank : ¬ (name.toList ++ ' ' :: first :: rest).all (!Text.isBlank ·) = true := by
      simp [show Text.isBlank ' ' = true by decide]
    rw [isText, Piece.ofHead, split_of_blank solid solidFirst]
    dsimp only
    rw [unreserved, if_neg Bool.false_ne_true, if_neg blank, closes, if_neg (by decide),
      read_attributesChars noEquals words isText equated]

theorem ofHead_empty (isWord : isWord name.toList)
    (words : ∀ field ∈ attributes, Xml.isWord field.1.toList) :
    Piece.ofHead (name.toList ++ attributesChars attributes ++ ['/']) =
      .empty (writtenHead name attributes) := by
  have solid := not_isBlank_of_isWord isWord
  rcases eq_or_ne attributes [] with rfl | written
  · have solidStroke : ∀ char ∈ name.toList ++ ['/'], Text.isBlank char = false := by
      intro char member
      rcases List.mem_append.mp member with inName | isStroke
      · exact solid char inName
      · rw [List.mem_singleton.mp isStroke]
        decide
    have all : (name.toList ++ ['/']).all (!Text.isBlank ·) = true := by
      apply List.all_eq_true.mpr
      intro char member
      rw [solidStroke char member]
      rfl
    rw [attributesChars, List.flatMap_nil, List.append_nil, Piece.ofHead,
      split_of_solid solidStroke]
    dsimp only
    rw [not_isReserved_of_isAlpha (head?_any_of_isWord isWord _), if_neg Bool.false_ne_true,
      if_pos all, List.getLast?_concat, if_pos (by decide), List.dropLast_concat, read_nil isWord]
  · obtain ⟨first, rest, isText, solidFirst, equated, closes⟩ :=
      exists_attributesChars words written
    have noEquals : '=' ∉ name.toList := not_mem_of_isWord isWord rfl
    have unreserved := not_isReserved_of_isAlpha (head?_any_of_isWord isWord [])
    have blank :
        ¬ (name.toList ++ ' ' :: first :: (rest ++ ['/'])).all (!Text.isBlank ·) = true := by
      simp [show Text.isBlank ' ' = true by decide]
    rw [List.append_nil] at unreserved
    rw [isText, List.append_assoc, List.cons_append, List.cons_append, Piece.ofHead,
      split_of_blank solid solidFirst]
    dsimp only
    rw [unreserved, if_neg Bool.false_ne_true, if_neg blank, ← List.cons_append,
      List.getLast?_concat, if_pos (by decide), if_neg (getLast?_ne_stroke isWord),
      List.dropLast_concat, read_attributesChars noEquals words isText equated]

theorem pieces_opening (isWord : isWord name.toList)
    (words : ∀ field ∈ attributes, Xml.isWord field.1.toList) (rest : List Char) :
    pieces ('<' :: (name.toList ++ attributesChars attributes ++ '>' :: rest)) =
      .opening (writtenHead name attributes) :: pieces rest := by
  have isHead := (isHeadText_of_isWord (.inl rfl) isWord).append
    (isHeadText_attributesChars (.inl rfl) words)
  have found := isHead.takeHead_eq (List.cons_ne_nil _ _) rest
  rw [← ofHead_opening isWord words]
  obtain ⟨first, more, isName, letter, _⟩ := exists_of_isWord isWord
  rw [isName] at found ⊢
  exact pieces_letter letter found

theorem pieces_empty (isWord : isWord name.toList)
    (words : ∀ field ∈ attributes, Xml.isWord field.1.toList) (rest : List Char) :
    pieces ('<' :: (name.toList ++ attributesChars attributes ++ '/' :: '>' :: rest)) =
      .empty (writtenHead name attributes) :: pieces rest := by
  have isMark : IsHeadMark ['>'] := .inl rfl
  have stroke : IsHeadText ['>'] ['/'] :=
    .cons (by decide) (isMark.head?_ne (by decide)) isMark.nonempty .nil
  have isHead := ((isHeadText_of_isWord isMark isWord).append
    (isHeadText_attributesChars isMark words)).append stroke
  have found := isHead.takeHead_eq (List.cons_ne_nil _ _) rest
  rw [← ofHead_empty isWord words]
  rw [List.append_assoc _ ['/']] at found
  obtain ⟨first, more, isName, letter, _⟩ := exists_of_isWord isWord
  rw [isName] at found ⊢
  exact pieces_letter letter found

end Pieces

/-! ### The declaration -/

/-- The attributes of the declaration in front of every document. -/
def declared : List (String × String) :=
  [("version", "1.0"), ("encoding", "UTF-8"), ("standalone", "yes")]

theorem isWord_of_declared : ∀ field ∈ declared, isWord field.1.toList := by
  decide

theorem toList_declaration :
    declaration.toList =
      '<' :: '?' :: ("xml".toList ++ attributesChars declared ++ ['?', '>'] ++ ['\n']) := by
  simp only [declaration, String.toList_append, toList_headText, List.append_assoc]
  rfl

theorem ofInstruction_declared :
    Piece.ofInstruction ('?' :: ("xml".toList ++ attributesChars declared)) =
      .instruction (writtenHead "?xml" declared) := by
  obtain ⟨first, rest, isText, solidFirst, equated, _⟩ :=
    exists_attributesChars isWord_of_declared (by decide)
  have name : '?' :: "xml".toList = "?xml".toList := rfl
  have solid : ∀ char ∈ "?xml".toList, Text.isBlank char = false := by
    simpa using show "?xml".toList.any Text.isBlank = false by decide
  rw [← List.cons_append, name, isText, Piece.ofInstruction, split_of_blank solid solidFirst]
  dsimp only
  rw [read_attributesChars (by decide) isWord_of_declared isText equated]

theorem pieces_declaration (rest : List Char) :
    pieces (declaration.toList ++ rest) =
      .instruction (writtenHead "?xml" declared) :: pieces ('\n' :: rest) := by
  have isMark : IsHeadMark ['?', '>'] := .inr rfl
  have isHead : IsHeadText ['?', '>'] ("xml".toList ++ attributesChars declared) :=
    (isHeadText_of_isWord isMark (by decide)).append
      (isHeadText_attributesChars isMark isWord_of_declared)
  have found : takeHead ['?', '>'] none
      ('?' :: ("xml".toList ++ attributesChars declared ++ (['?', '>'] ++ '\n' :: rest))) =
      some ('?' :: ("xml".toList ++ attributesChars declared), '\n' :: rest) := by
    rw [takeHead, if_neg (by simp), if_neg (by decide),
      isHead.takeHead_eq isMark.nonempty]
    rfl
  rw [toList_declaration, List.cons_append, List.cons_append, List.append_assoc,
    List.append_assoc, List.singleton_append, pieces_instruction found, ofInstruction_declared]

end Xml
end LadderDiagram
