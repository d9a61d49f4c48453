import LadderDiagram.Proofs.Xml.Written
import LadderDiagram.Xml.WellFormed
import Mathlib.Tactic.SplitIfs

/-!
# What is written is well formed

The check passes over the text of a plain node without a fault.  What it knows behind a text is
given by the names of the open tags, whether a tag has been seen and whether the root is closed;
the places that it keeps for faults do not matter.
-/

namespace LadderDiagram
namespace Xml

/-! ### The content of a tag -/

/-- A text behind a tag's name that closes its quotes and has no bracket outside them. -/
def IsContent (chars : List Char) : Prop :=
  ∀ rest, takeContent none (chars ++ rest) =
    (chars ++ (takeContent none rest).1, (takeContent none rest).2)

section Content

variable {chars more : List Char}

theorem IsContent.nil : IsContent [] := fun _ => rfl

theorem IsContent.append (first : IsContent chars) (second : IsContent more) :
    IsContent (chars ++ more) := by
  intro rest
  rw [List.append_assoc, first, second, List.append_assoc]

theorem IsContent.cons {char : Char} (plain : char ∉ ['>', '"', '\'']) (later : IsContent chars) :
    IsContent (char :: chars) := by
  intro rest
  simp only [List.mem_cons, List.not_mem_nil, or_false, not_or] at plain
  rw [List.cons_append, takeContent, if_neg (by simp [plain]), quoteAfter, if_neg (by simp [plain]),
    later]
  rfl

theorem IsContent.of_forall_mem (plain : ∀ char ∈ chars, char ∉ ['>', '"', '\'']) :
    IsContent chars := by
  induction chars with
  | nil => exact .nil
  | cons char rest ih =>
      obtain ⟨first, others⟩ := List.forall_mem_cons.mp plain
      exact .cons first (ih others)

theorem takeContent_quoted (noQuote : '"' ∉ chars) (rest : List Char) :
    takeContent (some '"') (chars ++ '"' :: rest) =
      (chars ++ '"' :: (takeContent none rest).1, (takeContent none rest).2) := by
  induction chars with
  | nil => rfl
  | cons char more ih =>
      rw [List.mem_cons, not_or] at noQuote
      have other : ¬ (char == '"') = true := fun same => noQuote.1 (beq_iff_eq.mp same).symm
      rw [List.cons_append, takeContent, if_neg (by simp), quoteAfter, if_neg other, ih noQuote.2]
      rfl

theorem IsContent.quoted (noQuote : '"' ∉ chars) : IsContent ('"' :: (chars ++ ['"'])) := by
  intro rest
  rw [List.cons_append, List.append_assoc, List.singleton_append, takeContent,
    if_neg (by decide), quoteAfter, if_pos (by decide), takeContent_quoted noQuote]
  simp

theorem IsContent.takeContent_eq (isContent : IsContent chars) (rest : List Char) :
    takeContent none (chars ++ '>' :: rest) = (chars, .bracket) := by
  rw [isContent, takeContent, if_pos (by decide), List.append_nil]

theorem isContent_of_isWord (isWord : isWord chars) : IsContent chars := by
  apply IsContent.of_forall_mem
  intro char member
  have other {sign : Char} (isSign : sign.isAlphanum = false) : char ≠ sign := by
    rintro rfl
    exact not_mem_of_isWord isWord isSign member
  simp only [List.mem_cons, List.not_mem_nil, or_false, not_or]
  exact ⟨other (by decide), other (by decide), other (by decide)⟩

theorem isContent_attributesChars {attributes : List (String × String)}
    (words : ∀ field ∈ attributes, isWord field.1.toList) :
    IsContent (attributesChars attributes) := by
  induction attributes with
  | nil => exact .nil
  | cons field rest ih =>
      obtain ⟨isWord, others⟩ := List.forall_mem_cons.mp words
      have value := IsContent.quoted (not_mem_escape_quote field.2.toList)
      have own : IsContent (attributeChars field) :=
        ((isContent_of_isWord isWord).append (value.cons (by decide))).cons (by decide)
      exact own.append (ih others)

end Content

/-! ### Tags -/

namespace TagText

section Tags

variable {name content : List Char}

theorem not_endsTagName_of_isWord (isWord : isWord name) :
    ∀ char ∈ name, (!endsTagName char) = true := by
  intro char member
  have other (sign : Char) (isSign : sign.isAlphanum = false) : char ≠ sign := by
    rintro rfl
    exact not_mem_of_isWord isWord isSign member
  simp [endsTagName, isSpace, other '>' (by decide), other ' ' (by decide),
    other '\t' (by decide), other '\n' (by decide), other '\r' (by decide)]

theorem trimChars_of_isWord (isWord : isWord name) : Text.trimChars name = name := by
  apply Text.trimChars_eq_self
  intro char member
  rw [not_isBlank_of_isWord isWord char member]
  exact Bool.false_ne_true

theorem not_endsWithStroke_of_isWord (isWord : isWord name) : endsWithStroke name = false :=
  Bool.eq_false_iff.mpr (getLast?_ne_stroke isWord)

/-- A tag whose name is a word, with a blank or the bracket behind it. -/
theorem readNamed_eq (closing : Bool) (isWord : isWord name) (isContent : IsContent content)
    (apart : ∀ char ∈ content.head?, isSpace char) (rest : List Char) :
    readNamed closing (name ++ (content ++ '>' :: rest)) =
      ⟨closing, name, content, .bracket, content ++ '>' :: rest, rest⟩ := by
  have raw : (name ++ (content ++ '>' :: rest)).takeWhile (!endsTagName ·) = name := by
    rw [List.takeWhile_append_of_pos (not_endsTagName_of_isWord isWord)]
    cases content with
    | nil => rw [List.nil_append, List.takeWhile_cons_of_neg (by decide), List.append_nil]
    | cons first more =>
        have ends : endsTagName first = true := Bool.or_eq_true_iff.mpr (.inr (apart first rfl))
        rw [List.cons_append, List.takeWhile_cons_of_neg (by simp [ends]), List.append_nil]
  have start : contentStart (name ++ (content ++ '>' :: rest)) = content ++ '>' :: rest := by
    rw [contentStart, raw, trimChars_of_isWord isWord, not_endsWithStroke_of_isWord isWord,
      if_neg Bool.false_ne_true, Nat.sub_zero, List.drop_left]
  have behind : (content ++ '>' :: rest).drop (content.length + 1) = rest := by
    rw [List.drop_length_add_append]
    rfl
  rw [readNamed, raw, start, isContent.takeContent_eq]
  dsimp only
  rw [trimChars_of_isWord isWord, not_endsWithStroke_of_isWord isWord,
    if_neg Bool.false_ne_true, behind]

/-- An empty tag without attributes. -/
theorem readNamed_stroke (isWord : isWord name) (rest : List Char) :
    readNamed false (name ++ '/' :: '>' :: rest) =
      ⟨false, name, ['/'], .bracket, '/' :: '>' :: rest, rest⟩ := by
  have plain : ∀ char ∈ name ++ ['/'], (!endsTagName char) = true := by
    intro char member
    rcases List.mem_append.mp member with inName | isStroke
    · exact not_endsTagName_of_isWord isWord char inName
    · rw [List.mem_singleton.mp isStroke]
      decide
  have solid : ∀ char ∈ name ++ ['/'], ¬ Text.isBlank char := by
    intro char member
    rcases List.mem_append.mp member with inName | isStroke
    · rw [not_isBlank_of_isWord isWord char inName]
      exact Bool.false_ne_true
    · rw [List.mem_singleton.mp isStroke]
      decide
  have raw : (name ++ '/' :: '>' :: rest).takeWhile (!endsTagName ·) = name ++ ['/'] := by
    rw [List.append_cons, List.takeWhile_append_of_pos plain,
      List.takeWhile_cons_of_neg (by decide), List.append_nil]
  have stroke : endsWithStroke (name ++ ['/']) = true := by
    rw [endsWithStroke, List.getLast?_concat]
    decide
  have start : contentStart (name ++ '/' :: '>' :: rest) = '/' :: '>' :: rest := by
    rw [contentStart, raw, Text.trimChars_eq_self solid, stroke, if_pos rfl, List.length_append,
      List.length_singleton, Nat.add_sub_cancel, List.drop_left]
  have isContent : IsContent ['/'] := .cons (by decide) .nil
  rw [readNamed, raw, start, ← List.singleton_append, isContent.takeContent_eq]
  dsimp only
  rw [Text.trimChars_eq_self solid, stroke, if_pos rfl, List.dropLast_concat]
  rfl

end Tags

end TagText

/-! ### Progress -/

/-- What the check knows but for the places. -/
structure Shown where
  /-- The names of the open tags, innermost first. -/
  names : List (List Char)
  tagSeen : Bool
  rootClosed : Bool

def Progress.shown (progress : Progress) : Shown :=
  ⟨progress.opened.map (·.name), progress.tagSeen, progress.rootClosed⟩

/-- What the check knows behind a text, whatever is behind it. -/
def Passes (before : Shown) (chars : List Char) (after : Shown) : Prop :=
  ∀ progress : Progress, progress.shown = before → ∀ rest, ∃ later : Progress,
    later.shown = after ∧ pass progress false (chars ++ rest) = pass later false rest

section Passing

variable {before between after : Shown}

theorem Passes.trans {first second : List Char} (start : Passes before first between)
    (later : Passes between second after) : Passes before (first ++ second) after := by
  intro progress shown rest
  obtain ⟨halfway, shownHalfway, passed⟩ := start progress shown (second ++ rest)
  obtain ⟨final, shownFinal, passedLater⟩ := later halfway shownHalfway rest
  exact ⟨final, shownFinal, by rw [List.append_assoc, passed, passedLater]⟩

theorem passes_spaces {chars : List Char} (spaces : ∀ char ∈ chars, isSpace char)
    (shown : Shown) : Passes shown chars shown := by
  intro progress isShown rest
  refine ⟨progress, isShown, ?_⟩
  induction chars with
  | nil => rfl
  | cons char more ih =>
      obtain ⟨space, others⟩ := List.forall_mem_cons.mp spaces
      have other {sign : Char} (isSign : isSpace sign = false) : char ≠ sign :=
        Text.ne_of_test space isSign
      have notTag : char ≠ '<' := other (by decide)
      have notReference : char ≠ '&' := other (by decide)
      rw [List.cons_append, pass.eq_5 _ _ _ _ (fun _ same _ => notTag same)
        (fun _ same _ => notTag same) notTag, if_neg (by simp [notReference]),
        Progress.takeCharacter, if_pos space]
      exact ih others

theorem passes_blanks (depth : Nat) (shown : Shown) : Passes shown (blanks depth) shown := by
  apply passes_spaces
  intro char member
  rw [List.eq_of_mem_replicate member]
  decide

theorem passes_feed (shown : Shown) : Passes shown ['\n'] shown :=
  passes_spaces (List.forall_mem_singleton.mpr (by decide)) shown

/-- A tag that is read behind its bracket and taken without a fault. -/
theorem passes_tag {chars : List Char} {tag : List Char → TagText}
    (begins : ∃ first more, chars = first :: more ∧ first ≠ '?' ∧ first ≠ '!')
    (isRead : ∀ rest, TagText.read (chars ++ rest) = tag rest)
    (isRest : ∀ rest, (tag rest).rest = rest)
    (taken : ∀ progress : Progress, progress.shown = before → ∀ rest place, ∃ later : Progress,
      later.shown = after ∧ progress.takeTag (tag rest) place = .ok later) :
    Passes before ('<' :: chars) after := by
  intro progress shown rest
  obtain ⟨later, shownLater, isTaken⟩ := taken progress shown rest ('<' :: (chars ++ rest))
  refine ⟨later, shownLater, ?_⟩
  obtain ⟨first, more, rfl, notQuestion, notMark⟩ := begins
  rw [List.cons_append, pass.eq_4 progress false (first :: more ++ rest)
    (fun _ same => notQuestion (List.cons.inj same).1)
    (fun _ same => notMark (List.cons.inj same).1), isRead, isTaken]
  dsimp only
  rw [isRest]

end Passing

/-! ### Verdicts -/

/-- What the check makes of a text, but for the places. -/
def verdict (outcome : Except Fault Progress) : Option Shown := outcome.toOption.map Progress.shown

section Verdicts

variable {first second : Progress} (same : first.shown = second.shown)

include same

theorem tagSeen_eq : first.tagSeen = second.tagSeen := congrArg Shown.tagSeen same

theorem verdict_close (tag : TagText) (place : List Char) :
    verdict (first.close tag place) = verdict (second.close tag place) := by
  obtain ⟨opened, tagSeen, rootClosed⟩ := first
  obtain ⟨others, _, _⟩ := second
  obtain ⟨sameNames, rfl, rfl⟩ := Shown.mk.inj same
  unfold Progress.close
  split_ifs
  · rfl
  · rfl
  match opened, others with
  | [], [] => rfl
  | [], _ :: _ => cases sameNames
  | _ :: _, [] => cases sameNames
  | innermost :: outer, innermost' :: outer' =>
      obtain ⟨sameName, sameOuter⟩ := List.cons.inj sameNames
      have bothEmpty : outer.isEmpty = outer'.isEmpty := by
        simpa using congrArg List.isEmpty sameOuter
      dsimp only at sameName ⊢
      rw [sameName, bothEmpty]
      split
      · exact congrArg (fun names => some (Shown.mk names tagSeen _)) sameOuter
      · rfl

theorem verdict_takeTag (tag : TagText) (place : List Char) :
    verdict (first.takeTag tag place) = verdict (second.takeTag tag place) := by
  have closes := verdict_close same tag place
  obtain ⟨sameNames, sameSeen, sameClosed⟩ := Shown.mk.inj same
  unfold Progress.takeTag
  dsimp only
  rw [sameClosed]
  split_ifs
  · rfl
  · rfl
  · rfl
  · cases Progress.contentFault? tag tag.content.dropLast with
    | some fault => rfl
    | none => simp [verdict, Except.toOption, Progress.shown, sameNames]
  · exact closes
  · cases Progress.contentFault? tag tag.content <;> rfl
  · cases Progress.contentFault? tag tag.content with
    | some fault => rfl
    | none => simp [verdict, Except.toOption, Progress.shown, sameNames]

theorem takeCharacter_eq (char : Char) (place : List Char) :
    first.takeCharacter char place = second.takeCharacter char place := by
  obtain ⟨_, sameSeen, sameClosed⟩ := Shown.mk.inj same
  rw [Progress.takeCharacter, Progress.takeCharacter, sameSeen, sameClosed]

/-- The places that are kept for faults play no part in whether there is one. -/
theorem verdict_pass (atStart : Bool) (chars : List Char) :
    verdict (pass first atStart chars) = verdict (pass second atStart chars) := by
  fun_induction pass first atStart chars generalizing second with
  | case1 =>
      rw [pass.eq_1]
      exact congrArg some same
  | case2 _ _ rest seen ih =>
      rw [pass.eq_2, ← tagSeen_eq same, if_pos seen]
      exact ih same
  | case3 _ _ rest unseen late =>
      rw [pass.eq_2, ← tagSeen_eq same, if_neg unseen, if_pos late]
  | case4 _ _ rest unseen inTime ih =>
      rw [pass.eq_2, ← tagSeen_eq same, if_neg unseen, if_neg inTime]
      exact ih same
  | case5 _ _ rest ih =>
      rw [pass.eq_3]
      exact ih same
  | case6 _ _ rest notQuestion notMark fault refused =>
      have taken := verdict_takeTag same (.read rest) ('<' :: rest)
      rw [pass.eq_4 _ _ _ notQuestion notMark]
      rw [refused] at taken
      cases isTaken : second.takeTag (.read rest) ('<' :: rest) with
      | error other => rfl
      | ok next =>
          rw [isTaken] at taken
          cases taken
  | case7 _ _ rest notQuestion notMark next isNext ih =>
      have taken := verdict_takeTag same (.read rest) ('<' :: rest)
      rw [pass.eq_4 _ _ _ notQuestion notMark]
      rw [isNext] at taken
      cases isTaken : second.takeTag (.read rest) ('<' :: rest) with
      | error other =>
          rw [isTaken] at taken
          cases taken
      | ok other =>
          rw [isTaken] at taken
          exact ih (Option.some.inj taken)
  | case8 _ _ char rest notQuestion notMark notTag refers none =>
      rw [pass.eq_5 _ _ _ _ notQuestion notMark notTag, ← tagSeen_eq same, if_pos refers]
      split
      next => rfl
      next found => cases found.symm.trans none
  | case9 _ _ char rest notQuestion notMark notTag refers left found ih =>
      rw [pass.eq_5 _ _ _ _ notQuestion notMark notTag, ← tagSeen_eq same, if_pos refers]
      split
      next none => cases none.symm.trans found
      next own isOwn =>
        obtain rfl := Option.some.inj (isOwn.symm.trans found)
        exact ih same
  | case10 _ _ char rest notQuestion notMark notTag plain fault stray =>
      rw [pass.eq_5 _ _ _ _ notQuestion notMark notTag, ← tagSeen_eq same, if_neg plain,
        ← takeCharacter_eq same, stray]
  | case11 _ _ char rest notQuestion notMark notTag plain taken ih =>
      rw [pass.eq_5 _ _ _ _ notQuestion notMark notTag, ← tagSeen_eq same, if_neg plain,
        ← takeCharacter_eq same, taken]
      exact ih same

theorem isNone_atEnd (text text' : List Char) :
    (first.atEnd text).isNone = (second.atEnd text').isNone := by
  obtain ⟨sameNames, sameSeen, _⟩ := Shown.mk.inj same
  rw [Progress.atEnd, Progress.atEnd, sameSeen]
  split
  · rfl
  · cases isFirst : first.opened with
    | nil => cases isSecond : second.opened <;> simp_all
    | cons own rest =>
        cases isSecond : second.opened with
        | nil => simp_all
        | cons other more => cases rest <;> cases more <;> simp_all

end Verdicts

/-! ### Pieces -/

section Pieces

variable {name : String} {attributes : List (String × String)} {names : List (List Char)}
  {tagSeen rootClosed : Bool}

theorem contentFault?_attributesChars (tag : TagText) (written : AreWritten attributes) :
    Progress.contentFault? tag (attributesChars attributes) = none := by
  rw [Progress.contentFault?, firstFault_attributesChars written.words written.distinct
    fun _ _ => List.not_mem_nil]
  rfl

theorem isSpace_of_mem_head?_attributesChars (attributes : List (String × String)) :
    ∀ char ∈ (attributesChars attributes).head?, isSpace char := by
  cases attributes with
  | nil => simp [attributesChars]
  | cons field rest =>
      rintro _ ⟨⟩
      rfl

theorem endsWithStroke_attributesChars (attributes : List (String × String)) :
    endsWithStroke (attributesChars attributes) = false := by
  rcases eq_or_ne attributes [] with rfl | written
  · rfl
  · rw [endsWithStroke, getLast?_attributesChars written]
    rfl

/-- A word begins no mark, and no closing tag. -/
theorem exists_first_of_isWord {word : List Char} (isWord : isWord word) (rest : List Char) :
    ∃ first more, word ++ rest = first :: more ∧ first ≠ '?' ∧ first ≠ '!' ∧ first ≠ '/' := by
  obtain ⟨first, more, rfl, letter, _⟩ := exists_of_isWord isWord
  refine ⟨first, more ++ rest, rfl, ?_, ?_, ?_⟩ <;> rintro rfl <;> cases letter

theorem TagText.read_of_isWord {word : List Char} (isWord : isWord word) (rest : List Char) :
    TagText.read (word ++ rest) = TagText.readNamed false (word ++ rest) := by
  obtain ⟨first, more, begins, _, _, notStroke⟩ := exists_first_of_isWord isWord rest
  rw [begins, TagText.read]
  exact fun _ same => notStroke (List.cons.inj same).1

theorem isEmpty_of_isWord {word : List Char} (isWord : isWord word) : word.isEmpty = false := by
  obtain ⟨first, more, rfl, _⟩ := exists_of_isWord isWord
  rfl

theorem passes_opening (isWord : isWord name.toList) (written : AreWritten attributes) :
    Passes ⟨names, tagSeen, false⟩ ('<' :: (name.toList ++ (attributesChars attributes ++ ['>'])))
      ⟨name.toList :: names, true, false⟩ := by
  have isRead (rest : List Char) := (TagText.read_of_isWord isWord _).trans
    (TagText.readNamed_eq false isWord (isContent_attributesChars written.words)
      (isSpace_of_mem_head?_attributesChars attributes) rest)
  obtain ⟨first, more, begins, notQuestion, notMark, _⟩ := exists_first_of_isWord isWord
    (attributesChars attributes ++ ['>'])
  refine passes_tag ⟨first, more, begins, notQuestion, notMark⟩
    (fun rest => by simpa using isRead rest) (fun _ => rfl) ?_
  rintro progress shown rest place
  obtain ⟨isOpened, _, isOpen⟩ := Shown.mk.inj shown
  refine ⟨⟨⟨name.toList, place⟩ :: progress.opened, true, false⟩, ?_, ?_⟩
  · rw [Progress.shown, List.map_cons, isOpened]
  · rw [Progress.takeTag]
    dsimp only
    rw [isEmpty_of_isWord isWord, isName_of_isWord isWord, endsWithStroke_attributesChars,
      contentFault?_attributesChars _ written, isOpen]
    rfl

theorem passes_empty (isWord : isWord name.toList) (written : AreWritten attributes) :
    Passes ⟨names, tagSeen, rootClosed⟩
      ('<' :: (name.toList ++ (attributesChars attributes ++ ['/', '>'])))
      ⟨names, true, rootClosed⟩ := by
  have isRead (rest : List Char) : TagText.read
      (name.toList ++ (attributesChars attributes ++ '/' :: '>' :: rest)) =
        ⟨false, name.toList, attributesChars attributes ++ ['/'], .bracket,
          attributesChars attributes ++ '/' :: '>' :: rest, rest⟩ := by
    rw [TagText.read_of_isWord isWord]
    have starts := isSpace_of_mem_head?_attributesChars attributes
    have isContent := isContent_attributesChars written.words
    generalize attributesChars attributes = content at starts isContent
    cases content with
    | nil => exact TagText.readNamed_stroke isWord rest
    | cons first more =>
        have isStroke : IsContent ['/'] := .cons (by decide) .nil
        have read := TagText.readNamed_eq false isWord (isContent.append isStroke) starts rest
        simpa using read
  obtain ⟨first, more, begins, notQuestion, notMark, _⟩ := exists_first_of_isWord isWord
    (attributesChars attributes ++ ['/', '>'])
  refine passes_tag ⟨first, more, begins, notQuestion, notMark⟩
    (fun rest => by simpa using isRead rest) (fun _ => rfl) ?_
  rintro progress shown rest place
  obtain ⟨isOpened, _, isClosed⟩ := Shown.mk.inj shown
  have stroke : endsWithStroke (attributesChars attributes ++ ['/']) = true := by
    rw [endsWithStroke, List.getLast?_concat]
    rfl
  refine ⟨{ progress with tagSeen := true }, ?_, ?_⟩
  · rw [Progress.shown, isOpened, isClosed]
  · rw [Progress.takeTag]
    dsimp only
    rw [isEmpty_of_isWord isWord, isName_of_isWord isWord, stroke, List.dropLast_concat,
      contentFault?_attributesChars _ written]
    rfl

theorem isBlank_of_isSpace {char : Char} (space : isSpace char) : Text.isBlank char := by
  simp only [isSpace, Bool.or_eq_true, beq_iff_eq] at space
  rcases space with ((rfl | rfl) | rfl) | rfl <;> decide

/-- A closing tag ends the innermost element, whatever spaces it has behind its name. -/
theorem passes_closing (isWord : isWord name.toList) {spaces : List Char}
    (isSpaces : ∀ char ∈ spaces, isSpace char) :
    Passes ⟨name.toList :: names, true, false⟩ ('<' :: '/' :: (name.toList ++ (spaces ++ ['>'])))
      ⟨names, true, names.isEmpty⟩ := by
  have other {char sign : Char} (isSign : isSpace sign = false) (member : char ∈ spaces) :
      char ≠ sign := Text.ne_of_test (isSpaces _ member) isSign
  have isContent : IsContent spaces := IsContent.of_forall_mem fun char member => by
    simp only [List.mem_cons, List.not_mem_nil, or_false, not_or]
    exact ⟨other (by decide) member, other (by decide) member, other (by decide) member⟩
  have isRead (rest : List Char) :
      TagText.read ('/' :: (name.toList ++ (spaces ++ '>' :: rest))) = _ :=
    TagText.readNamed_eq true isWord isContent
      (fun char member => isSpaces char (List.mem_of_mem_head? member)) rest
  have noStroke : endsWithStroke spaces = false := Bool.eq_false_iff.mpr fun ends =>
    other (by decide) (List.mem_of_getLast? (beq_iff_eq.mp ends)) rfl
  have areBlank : spaces.all Text.isBlank = true := List.all_eq_true.mpr fun char member =>
    isBlank_of_isSpace (isSpaces char member)
  refine passes_tag ⟨'/', _, rfl, by decide, by decide⟩
    (fun rest => by simpa using isRead rest) (fun _ => rfl) ?_
  rintro progress shown rest place
  obtain ⟨isOpened, isSeen, isOpen⟩ := Shown.mk.inj shown
  obtain ⟨innermost, outer, opened, sameName, others⟩ := List.map_eq_cons_iff.mp isOpened
  refine ⟨⟨outer, true, outer.isEmpty⟩, ?_, ?_⟩
  · rw [Progress.shown, others, ← others]
    simp
  · rw [Progress.takeTag]
    dsimp only
    rw [isEmpty_of_isWord isWord, isName_of_isWord isWord, noStroke, Progress.close]
    dsimp only
    rw [areBlank, opened, isSeen, isOpen, ← sameName]
    simp

theorem length_le_unitLength (chars : List Char) : chars.length ≤ Text.unitLength chars := by
  induction chars with
  | nil => exact Nat.le_refl 0
  | cons char rest ih =>
      have positive := Text.unitCount_pos char
      rw [Text.unitLength_cons, List.length_cons]
      omega

/-- A section is skipped up to the mark of its end. -/
theorem skipDeclaration_section {chars : List Char} (whole : ¬ sectionEnd <:+: chars)
    (rest : List Char) :
    skipDeclaration ("[CDATA[".toList ++ (chars ++ sectionEnd ++ rest)) = rest := by
  have long : 9 ≤ Text.unitLength
      (("[CDATA[".toList ++ (chars ++ sectionEnd ++ rest)).take 9) := by
    refine Nat.le_trans (Nat.le_of_eq ?_) (length_le_unitLength _)
    rw [List.length_take, List.length_append, List.length_append, List.length_append]
    simp [sectionEnd]
    omega
  have found : Text.dropPast sectionEnd (chars ++ sectionEnd ++ rest) = rest := by
    rw [Text.dropPast, splitAtMark_sectionEnd whole]
  have noComment : "--".toList.isPrefixOf
      ("[CDATA[".toList ++ (chars ++ sectionEnd ++ rest)) = false := rfl
  have noType : "DOCTYPE".toList.isPrefixOf
      ("[CDATA[".toList ++ (chars ++ sectionEnd ++ rest)) = false := rfl
  have isSection : "[CDATA[".toList.isPrefixOf
      ("[CDATA[".toList ++ (chars ++ sectionEnd ++ rest)) = true :=
    List.isPrefixOf_iff_prefix.mpr (List.prefix_append _ _)
  rw [skipDeclaration, noComment, noType, isSection, Bool.false_and, Bool.false_and,
    if_neg Bool.false_ne_true, if_neg Bool.false_ne_true, if_pos (by simpa using long)]
  exact found

theorem passes_section {chars : List Char} (whole : ¬ sectionEnd <:+: chars) (shown : Shown) :
    Passes shown (sectionChars chars) shown := by
  intro progress isShown rest
  refine ⟨progress, isShown, ?_⟩
  have passed := pass.eq_3 progress false ("[CDATA[".toList ++ (chars ++ sectionEnd ++ rest))
  rw [skipDeclaration_section whole] at passed
  rw [sectionChars_eq, List.append_assoc]
  exact passed

theorem passes_sections (parts : List (List Char))
    (whole : ∀ part ∈ parts, ¬ sectionEnd <:+: part) (shown : Shown) :
    Passes shown (parts.flatMap sectionChars) shown := by
  induction parts with
  | nil => exact passes_spaces (fun _ member => absurd member List.not_mem_nil) shown
  | cons part rest ih =>
      obtain ⟨first, others⟩ := List.forall_mem_cons.mp whole
      rw [List.flatMap_cons]
      exact (passes_section first shown).trans (ih others)

theorem afterReference?_of_mem {reference : String} {char : Char}
    (member : (reference, char) ∈ references) (rest : List Char) :
    afterReference? (reference.toList ++ rest) = some rest := by
  have all : ∀ entry ∈ references, ∀ rest,
      afterReference? (entry.1.toList ++ rest) = some rest := by
    simp [references, afterReference?, pastSemicolon?, isHexDigit, inReferenceName,
      referenceLimit]
  exact all _ member rest

/-- A text that is written within an element changes nothing that the check knows. -/
theorem passes_spelled {text written : List Char} (spells : Spells text written) :
    Passes ⟨names, true, false⟩ written ⟨names, true, false⟩ := by
  induction spells with
  | nil => exact passes_spaces (fun _ member => absurd member List.not_mem_nil) _
  | @itself char text written notMark notReference later ih =>
      intro progress shown rest
      obtain ⟨_, isSeen, isOpen⟩ := Shown.mk.inj shown
      obtain ⟨final, shownFinal, passed⟩ := ih progress shown rest
      have taken (place : List Char) : progress.takeCharacter char place = none := by
        rw [Progress.takeCharacter, isSeen, isOpen]
        simp
      refine ⟨final, shownFinal, ?_⟩
      rw [List.cons_append, pass.eq_5 _ _ _ _ (fun _ same _ => notMark same)
        (fun _ same _ => notMark same) notMark, if_neg (by simp [notReference]), taken]
      exact passed
  | @reference name char text written member later ih =>
      intro progress shown rest
      obtain ⟨_, isSeen, _⟩ := Shown.mk.inj shown
      obtain ⟨final, shownFinal, passed⟩ := ih progress shown rest
      refine ⟨final, shownFinal, ?_⟩
      have notMark : '&' ≠ '<' := by decide
      rw [List.cons_append, List.append_assoc, pass.eq_5 _ _ _ _ (fun _ same _ => notMark same)
        (fun _ same _ => notMark same) notMark, if_pos (by simp [isSeen])]
      split
      next none => cases none.symm.trans (afterReference?_of_mem member _)
      next left found =>
        obtain rfl := Option.some.inj (found.symm.trans (afterReference?_of_mem member _))
        exact passed

end Pieces

/-! ### Nodes -/

section Nodes

variable {depth : Nat} {name : String} {attributes : List (String × String)}
  {names : List (List Char)} {tagSeen rootClosed : Bool}

theorem passes_render_empty (isWord : isWord name.toList) (written : AreWritten attributes) :
    Passes ⟨names, tagSeen, rootClosed⟩ (Node.render depth (.element name attributes [])).toList
      ⟨names, true, rootClosed⟩ := by
  have tag : Passes ⟨names, tagSeen, rootClosed⟩ _ ⟨names, true, rootClosed⟩ :=
    passes_empty isWord written
  have line := (passes_blanks depth _).trans (tag.trans (passes_feed _))
  rw [toList_render_empty]
  simpa using line

theorem passes_render_characters (text : String) (shown : Shown) :
    Passes shown (Node.render depth (.characters text)).toList shown := by
  have inner := passes_sections (sections text.toList) (fun _ => not_infix_of_mem_sections) shown
  rw [toList_render_characters]
  exact (passes_blanks depth shown).trans (inner.trans (passes_feed shown))

theorem passes_render_element (isWord : isWord name.toList) (written : AreWritten attributes)
    {first : Node} {more : List Node}
    (children : Passes ⟨name.toList :: names, true, false⟩
      (renderNodes (depth + 1) (first :: more)).toList ⟨name.toList :: names, true, false⟩) :
    Passes ⟨names, tagSeen, false⟩
      (Node.render depth (.element name attributes (first :: more))).toList
      ⟨names, true, names.isEmpty⟩ := by
  have openingTag : Passes ⟨names, tagSeen, false⟩ _ ⟨name.toList :: names, true, false⟩ :=
    passes_opening isWord written
  have closingTag : Passes ⟨name.toList :: names, true, false⟩ _ ⟨names, true, names.isEmpty⟩ :=
    passes_closing isWord fun _ none => absurd none List.not_mem_nil
  have opening := (passes_blanks depth _).trans (openingTag.trans (passes_feed _))
  have closing := (passes_blanks depth _).trans (closingTag.trans (passes_feed _))
  rw [toList_render_element]
  simpa using opening.trans (children.trans closing)

end Nodes

mutual

/-- Within an open element, a written node changes nothing that the check knows. -/
theorem passes_render (node : Node) {levels : Nat} (isPlain : node.IsPlain levels)
    (name : List Char) (names : List (List Char)) (depth : Nat) :
    Passes ⟨name :: names, true, false⟩ (node.render depth).toList
      ⟨name :: names, true, false⟩ := by
  cases isPlain with
  | empty isWord written => exact passes_render_empty isWord written
  | @element _ own _ first more isWord written children =>
      exact passes_render_element isWord written
        (passes_renderNodes (first :: more) children own.toList (name :: names) (depth + 1))
  | @characters _ text => exact passes_render_characters text _

theorem passes_renderNodes (nodes : List Node) {levels : Nat} (arePlain : ArePlain levels nodes)
    (name : List Char) (names : List (List Char)) (depth : Nat) :
    Passes ⟨name :: names, true, false⟩ (renderNodes depth nodes).toList
      ⟨name :: names, true, false⟩ := by
  cases arePlain with
  | nil => exact passes_spaces (fun _ member => absurd member List.not_mem_nil) _
  | @cons _ node rest isPlain others =>
      rw [toList_renderNodes_cons]
      exact (passes_render node isPlain name names depth).trans
        (passes_renderNodes rest others name names depth)

end

/-! ### Documents -/

theorem pass_declaration (rest : List Char) :
    pass .start true (declaration.toList ++ rest) = pass .start false ('\n' :: rest) := by
  have noMark : '?' ∉ "xml".toList ++ attributesChars declared := by decide
  have found : Text.dropPast "?>".toList
      ("xml".toList ++ attributesChars declared ++ '?' :: (['>'] ++ '\n' :: rest)) =
        '\n' :: rest := by
    rw [Text.dropPast, show "?>".toList = ['?', '>'] from rfl, Text.splitAtMark_of_not_mem noMark]
  have passed := pass.eq_2 .start true
    ("xml".toList ++ attributesChars declared ++ '?' :: (['>'] ++ '\n' :: rest))
  rw [found] at passed
  rw [toList_declaration]
  simpa [Progress.start] using passed

/-- A written document whose root is a plain element has no fault. -/
theorem check?_renderDocument {name : String} {attributes : List (String × String)}
    {children : List Node} {levels : Nat}
    (isPlain : (Node.element name attributes children).IsPlain levels) :
    check? (renderDocument (.element name attributes children)).toList = none := by
  have passes : ∃ rootClosed, Passes ⟨[], false, false⟩
      (Node.render 0 (.element name attributes children)).toList ⟨[], true, rootClosed⟩ := by
    cases isPlain with
    | empty isWord written => exact ⟨false, passes_render_empty isWord written⟩
    | @element _ _ _ first more isWord written inner =>
        exact ⟨true, passes_render_element isWord written
          (passes_renderNodes (first :: more) inner name.toList [] 1)⟩
  obtain ⟨rootClosed, passesRoot⟩ := passes
  obtain ⟨final, shown, passed⟩ := ((passes_feed _).trans passesRoot) .start rfl []
  obtain ⟨isOpened, isSeen, _⟩ := Shown.mk.inj shown
  have noMark (rest : List Char) :
      withoutMark (declaration.toList ++ rest) = declaration.toList ++ rest := by
    rw [toList_declaration]
    rfl
  have ends (text : List Char) : final.atEnd text = none := by
    rw [Progress.atEnd, isSeen, List.map_eq_nil_iff.mp isOpened]
    rfl
  rw [List.append_nil, List.singleton_append, pass.eq_1] at passed
  rw [check?, renderDocument, String.toList_append, noMark]
  rw [pass_declaration, passed]
  dsimp only
  rw [ends]
  rfl

end Xml
end LadderDiagram
