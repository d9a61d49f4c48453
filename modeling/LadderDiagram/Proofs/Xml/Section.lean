import LadderDiagram.Proofs.Text.Line
import LadderDiagram.Xml.Printer

/-!
# Sections of a text

A text is written as one section, unless it holds the mark of the end of a section.  Each such
mark is cut in front of its last sign, so that no section holds it, and a text with a mark is
written as more than one section.
-/

namespace LadderDiagram
namespace Xml

open Text (withLineFeeds withLineFeeds_cons withLineFeeds_return)

/-- The mark that ends a character section. -/
def sectionEnd : List Char := "]]>".toList

/-- The parts of a text that are written as a section each. -/
def sections : List Char → List (List Char)
  | ']' :: ']' :: '>' :: rest => [']', ']'] :: (sections rest).modifyHead ('>' :: ·)
  | char :: rest => (sections rest).modifyHead (char :: ·)
  | [] => [[]]

/-- A section as it is written. -/
def sectionChars (part : List Char) : List Char := "<![CDATA[".toList ++ (part ++ sectionEnd)

theorem sectionChars_eq (part : List Char) :
    sectionChars part = "<![CDATA[".toList ++ (part ++ sectionEnd) := rfl

/-! ### Cutting -/

/-- A text does not begin with the mark. -/
def IsUnmarked (char : Char) (rest : List Char) : Prop :=
  ∀ more, char = ']' → rest = ']' :: '>' :: more → False

theorem cutSection_mark (rest : List Char) :
    cutSection (']' :: ']' :: '>' :: rest) = "]]]]><![CDATA[>".toList ++ cutSection rest := rfl

theorem cutSection_cons {char : Char} {rest : List Char} (unmarked : IsUnmarked char rest) :
    cutSection (char :: rest) = char :: cutSection rest := by
  generalize isText : char :: rest = chars
  fun_cases cutSection chars with
  | case1 more =>
      obtain ⟨rfl, rfl⟩ := List.cons.inj isText
      exact (unmarked more rfl rfl).elim
  | case2 =>
      obtain ⟨rfl, rfl⟩ := List.cons.inj isText
      rfl
  | case3 => cases isText

theorem IsUnmarked.not_prefix {char : Char} {rest : List Char} (unmarked : IsUnmarked char rest) :
    ¬ sectionEnd <+: char :: rest := by
  rintro ⟨more, isText⟩
  obtain ⟨rfl, isRest⟩ := List.cons.inj isText
  exact unmarked more rfl isRest.symm

/-- The first part begins the text, and the others are written behind it. -/
theorem exists_sections (chars : List Char) :
    ∃ first more, sections chars = first :: more ∧ first <+: chars ∧
      cutSection chars ++ sectionEnd = first ++ sectionEnd ++ more.flatMap sectionChars := by
  fun_induction sections chars with
  | case1 rest ih =>
      obtain ⟨first, more, parts, _, written⟩ := ih
      have mark : "]]]]><![CDATA[>".toList =
          [']', ']'] ++ (sectionEnd ++ ("<![CDATA[".toList ++ ['>'])) := by
        decide
      refine ⟨[']', ']'], ('>' :: first) :: more, ?_, List.prefix_append _ _, ?_⟩
      · rw [parts, List.modifyHead_cons]
      · simp only [cutSection_mark, mark, List.append_assoc, written, List.flatMap_cons,
          sectionChars_eq, List.cons_append, List.nil_append]
  | case2 char rest unmarked ih =>
      obtain ⟨first, more, parts, starts, written⟩ := ih
      refine ⟨char :: first, more, ?_, List.cons_prefix_cons.mpr ⟨rfl, starts⟩, ?_⟩
      · rw [parts, List.modifyHead_cons]
      · rw [cutSection_cons unmarked, List.cons_append, written]
        rfl
  | case3 => exact ⟨[], [], rfl, List.prefix_refl [], rfl⟩

/-- The sections of a text together are the text that is cut, within one beginning and end. -/
theorem flatMap_sections (chars : List Char) :
    (sections chars).flatMap sectionChars =
      "<![CDATA[".toList ++ (cutSection chars ++ sectionEnd) := by
  obtain ⟨first, more, parts, _, written⟩ := exists_sections chars
  simp only [written, parts, List.flatMap_cons, sectionChars_eq, List.append_assoc]

theorem toList_sectionMarkup (text : String) :
    (sectionMarkup text).toList = (sections text.toList).flatMap sectionChars := by
  simp only [flatMap_sections, sectionMarkup, sectionEnd, String.toList_append,
    String.toList_ofList, List.append_assoc]

theorem not_infix_of_mem_sections {chars part : List Char} (member : part ∈ sections chars) :
    ¬ sectionEnd <:+: part := by
  fun_induction sections chars generalizing part with
  | case1 rest ih =>
      obtain ⟨first, more, parts, _, _⟩ := exists_sections rest
      rw [parts] at member ih
      rw [List.modifyHead_cons] at member
      rcases List.mem_cons.mp member with rfl | later
      · decide
      rcases List.mem_cons.mp later with rfl | inMore
      · intro found
        rcases List.infix_cons_iff.mp found with starts | inFirst
        · exact absurd (List.cons_prefix_cons.mp starts).1 (by decide)
        · exact ih List.mem_cons_self inFirst
      · exact ih (List.mem_cons_of_mem _ inMore)
  | case2 char rest unmarked ih =>
      obtain ⟨first, more, parts, begins, _⟩ := exists_sections rest
      rw [parts] at member ih
      rw [List.modifyHead_cons] at member
      rcases List.mem_cons.mp member with rfl | inMore
      · intro found
        rcases List.infix_cons_iff.mp found with starts | inFirst
        · exact IsUnmarked.not_prefix unmarked
            (starts.trans (List.cons_prefix_cons.mpr ⟨rfl, begins⟩))
        · exact ih List.mem_cons_self inFirst
      · exact ih (List.mem_cons_of_mem _ inMore)
  | case3 =>
      rw [List.mem_singleton.mp member]
      decide

/-- A text without the mark is one section. -/
theorem sections_eq_singleton {chars : List Char} (whole : ¬ sectionEnd <:+: chars) :
    sections chars = [chars] := by
  fun_induction sections chars with
  | case1 rest _ => exact absurd (List.prefix_append sectionEnd rest).isInfix whole
  | case2 char rest _ ih =>
      rw [ih fun later => whole (List.infix_cons later), List.modifyHead_cons]
  | case3 => rfl

/-- A text with the mark is more than one section. -/
theorem exists_sections_of_infix {chars : List Char} (found : sectionEnd <:+: chars) :
    ∃ first second more, sections chars = first :: second :: more := by
  fun_induction sections chars with
  | case1 rest _ =>
      obtain ⟨first, more, parts, _, _⟩ := exists_sections rest
      exact ⟨_, _, more, by rw [parts, List.modifyHead_cons]⟩
  | case2 char rest unmarked ih =>
      have later := (List.infix_cons_iff.mp found).resolve_left (IsUnmarked.not_prefix unmarked)
      obtain ⟨first, second, more, parts⟩ := ih later
      exact ⟨char :: first, second, more, by rw [parts, List.modifyHead_cons]⟩
  | case3 => exact absurd (List.eq_nil_of_infix_nil found) (by decide)

/-! ### Line feeds -/

theorem head?_cutSection (chars : List Char) : (cutSection chars).head? = chars.head? := by
  fun_cases cutSection chars with
  | case1 rest => rfl
  | case2 char rest => rfl
  | case3 => rfl

/-- Line ends are cut nowhere, and cutting leaves them as they are. -/
theorem withLineFeeds_cutSection (chars : List Char) :
    withLineFeeds (cutSection chars) = cutSection (withLineFeeds chars) := by
  fun_induction sections chars with
  | case1 rest ih =>
      rw [cutSection_mark, Text.withLineFeeds_append_of_not_mem (by decide), ih,
        withLineFeeds_cons (by decide), withLineFeeds_cons (by decide),
        withLineFeeds_cons (by decide), cutSection_mark]
  | case2 char rest unmarked ih =>
      have feed (own : List Char) : IsUnmarked '\n' own := fun _ isBracket => nomatch isBracket
      rw [cutSection_cons unmarked]
      by_cases isReturn : char = '\r'
      · subst isReturn
        by_cases isPair : rest.head? = some '\n'
        · obtain ⟨more, rfl⟩ := List.head?_eq_some_iff.mp isPair
          rw [cutSection_cons (feed more)] at ih ⊢
          rw [withLineFeeds_cons (by decide), withLineFeeds_cons (by decide)] at ih
          exact ih
        · rw [withLineFeeds_return isPair, withLineFeeds_return (by rwa [head?_cutSection]), ih,
            cutSection_cons (feed _)]
      · have unmarkedFed : IsUnmarked char (withLineFeeds rest) := by
          intro more isBracket isRest
          have starts : [']', '>'] <+: rest :=
            Text.prefix_of_prefix_withLineFeeds (by decide) ⟨more, isRest.symm⟩
          obtain ⟨others, isText⟩ := starts
          exact unmarked others isBracket isText.symm
        rw [withLineFeeds_cons isReturn, withLineFeeds_cons isReturn, ih,
          cutSection_cons unmarkedFed]
  | case3 => rfl

/-- A text with line feeds holds the mark where the text does. -/
theorem infix_withLineFeeds_iff {chars : List Char} :
    sectionEnd <:+: withLineFeeds chars ↔ sectionEnd <:+: chars := by
  refine ⟨Text.infix_of_infix_withLineFeeds (by decide), ?_⟩
  rintro ⟨before, after, rfl⟩
  refine ⟨withLineFeeds before, withLineFeeds after, ?_⟩
  have apart : (sectionEnd ++ after).head? ≠ some '\n' := by
    intro isFeed
    exact absurd (Option.some.inj isFeed) (by decide)
  rw [List.append_assoc, List.append_assoc, Text.withLineFeeds_append before apart,
    Text.withLineFeeds_append_of_not_mem (by decide)]

end Xml
end LadderDiagram
