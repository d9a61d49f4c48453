import LadderDiagram.Proofs.Text.Line
import LadderDiagram.Xml.Reference
import Mathlib.Algebra.GroupWithZero.Nat
import Mathlib.Data.List.DropRight

/-!
# References that are written

A value within quotes has its markup characters written as references.  Decoding gives them
back, each reference counts once, and blanks and line ends stay where they are, so trimming
the written value and making its line ends line feeds is doing so with the value itself.
-/

namespace LadderDiagram
namespace Xml

/-- The characters that are written as references. -/
def isEscaped (char : Char) : Bool :=
  char == '&' || char == '>' || char == '<' || char == '\'' || char == '"'

theorem escapeChar_of_not_isEscaped {char : Char} (plain : isEscaped char = false) :
    escapeChar char = [char] := by
  simp only [isEscaped, Bool.or_eq_false_iff, beq_eq_false_iff_ne] at plain
  unfold escapeChar
  split <;> simp_all

theorem escape_cons (char : Char) (chars : List Char) :
    escape (char :: chars) = escapeChar char ++ escape chars := rfl

theorem isEscaped_iff {char : Char} :
    isEscaped char = true ↔
      char = '&' ∨ char = '>' ∨ char = '<' ∨ char = '\'' ∨ char = '"' := by
  simp [isEscaped, or_assoc]

/-- What follows the ampersand of a reference that is written for a character. -/
structure Refers (written : List Char) (char : Char) : Prop where
  takes : ∀ rest, takeReference (written ++ rest) = some (char, rest)
  plain : ∀ own ∈ written, isEscaped own = false
  solid : ∀ own ∈ written, Text.isBlank own = false
  nonempty : written ≠ []

/-- No reference begins another, so each is taken for its own character. -/
theorem refers_of_mem {written : String} {char : Char} (member : (written, char) ∈ references) :
    Refers written.toList char := by
  have found : ∀ entry ∈ references, ∀ rest,
      (references.find? fun own => own.1.toList.isPrefixOf (entry.1.toList ++ rest)) =
        some entry := by
    simp [references, List.isPrefixOf]
  have plain : ∀ entry ∈ references, entry.1.toList.any isEscaped = false := by decide
  have solid : ∀ entry ∈ references, entry.1.toList.any Text.isBlank = false := by decide
  have nonempty : ∀ entry ∈ references, entry.1.toList ≠ [] := by decide
  refine ⟨fun rest => ?_, by simpa using plain _ member, by simpa using solid _ member,
    nonempty _ member⟩
  rw [takeReference, found _ member, Option.map_some]
  dsimp only
  rw [← String.length_toList, List.drop_left]

theorem escapeChar_of_isEscaped {char : Char} (escaped : isEscaped char = true) :
    ∃ written, escapeChar char = '&' :: written ∧ Refers written char := by
  rcases isEscaped_iff.mp escaped with rfl | rfl | rfl | rfl | rfl
  · exact ⟨"amp;".toList, rfl, refers_of_mem (by decide)⟩
  · exact ⟨"gt;".toList, rfl, refers_of_mem (by decide)⟩
  · exact ⟨"lt;".toList, rfl, refers_of_mem (by decide)⟩
  · exact ⟨"apos;".toList, rfl, refers_of_mem (by decide)⟩
  · exact ⟨"quot;".toList, rfl, refers_of_mem (by decide)⟩

/-! ### Decoding and counting -/

theorem decode_ampersand {written after : List Char} {char : Char}
    (found : takeReference written = some (char, after)) :
    decode ('&' :: written) = char :: decode after := by
  rw [decode, if_pos (by decide)]
  split
  next own rest isOwn =>
    rw [found] at isOwn
    cases isOwn
    rfl
  next none =>
    rw [found] at none
    cases none

theorem decode_of_not_isEscaped {char : Char} (plain : isEscaped char = false)
    (chars : List Char) : decode (char :: chars) = char :: decode chars := by
  have other : ¬ (char == '&') = true := by
    intro same
    rw [beq_iff_eq.mp same] at plain
    cases plain
  rw [decode, if_neg other]

theorem referred_ampersand {written after : List Char} {char : Char}
    (found : takeReference written = some (char, after)) :
    referred ('&' :: written) = char :: referred after := by
  rw [referred, if_pos (by decide)]
  split
  next own rest isOwn =>
    rw [found] at isOwn
    cases isOwn
    rfl
  next none =>
    rw [found] at none
    cases none

theorem referred_of_not_isEscaped {char : Char} (plain : isEscaped char = false)
    (chars : List Char) : referred (char :: chars) = referred chars := by
  have other : ¬ (char == '&') = true := by
    intro same
    rw [beq_iff_eq.mp same] at plain
    cases plain
  rw [referred, if_neg other]

/-- What is written within quotes is read as what it was. -/
theorem decode_escape (chars : List Char) : decode (escape chars) = chars := by
  induction chars with
  | nil => rw [escape, List.flatMap_nil, decode]
  | cons char rest ih =>
      rw [escape_cons]
      cases escaped : isEscaped char with
      | false =>
          rw [escapeChar_of_not_isEscaped escaped, List.singleton_append,
            decode_of_not_isEscaped escaped, ih]
      | true =>
          obtain ⟨written, isWritten, refers⟩ := escapeChar_of_isEscaped escaped
          rw [isWritten, List.cons_append, decode_ampersand (refers.takes _), ih]

theorem referred_escape (chars : List Char) : referred (escape chars) = chars.filter isEscaped := by
  induction chars with
  | nil => rw [escape, List.flatMap_nil, referred, List.filter_nil]
  | cons char rest ih =>
      rw [escape_cons]
      cases escaped : isEscaped char with
      | false =>
          rw [escapeChar_of_not_isEscaped escaped, List.singleton_append,
            referred_of_not_isEscaped escaped, ih, List.filter_cons_of_neg (by simp [escaped])]
      | true =>
          obtain ⟨written, isWritten, refers⟩ := escapeChar_of_isEscaped escaped
          rw [isWritten, List.cons_append, referred_ampersand (refers.takes _), ih,
            List.filter_cons_of_pos escaped]

/-- The number of references in a written value that are counted. -/
def referenceCount (chars : List Char) : Nat := (countedChars.map chars.count).sum

theorem foldlM_count {meant counted : List Char} {before : Nat}
    (few : before + (counted.map meant.count).sum ≤ mostReferences) :
    counted.foldlM
      (fun count char =>
        let total := count + meant.count char
        if mostReferences < total then Except.error total else .ok total) before =
      .ok (before + (counted.map meant.count).sum) := by
  induction counted generalizing before with
  | nil => rfl
  | cons char rest ih =>
      rw [List.map_cons, List.sum_cons, ← Nat.add_assoc] at few ⊢
      rw [List.foldlM_cons, ← ih few]
      dsimp only
      rw [if_neg (by omega)]
      rfl

/-- As many references as are written are counted, as long as they are not too many. -/
theorem countReferences_escape {before : Nat} {chars : List Char}
    (few : before + referenceCount chars ≤ mostReferences) :
    countReferences before (escape chars) = .ok (before + referenceCount chars) := by
  have counts : countedChars.map (referred (escape chars)).count =
      countedChars.map chars.count := by
    apply List.map_congr_left
    intro char counted
    have escaped : isEscaped char = true :=
      List.all_eq_true.mp (show countedChars.all isEscaped = true by decide) char counted
    rw [referred_escape, List.count_filter escaped]
  unfold referenceCount at few ⊢
  rw [← counts] at few ⊢
  exact foldlM_count few

/-! ### Blanks and line ends -/

theorem isBlank_ampersand : Text.isBlank '&' = false := by decide

/-- Where only blanks are written as they are, and no blank is written first, trimming commutes. -/
theorem dropWhile_isBlank_flatMap {write : Char → List Char}
    (blank : ∀ char, Text.isBlank char = true → write char = [char])
    (solid : ∀ char, Text.isBlank char = false →
      ∃ first rest, write char = first :: rest ∧ Text.isBlank first = false)
    (chars : List Char) :
    (chars.flatMap write).dropWhile Text.isBlank = (chars.dropWhile Text.isBlank).flatMap write := by
  induction chars with
  | nil => rfl
  | cons char more ih =>
      rw [List.flatMap_cons]
      cases isBlank : Text.isBlank char with
      | true =>
          rw [blank char isBlank, List.singleton_append, List.dropWhile_cons_of_pos isBlank,
            List.dropWhile_cons_of_pos isBlank, ih]
      | false =>
          obtain ⟨first, rest, written, firstSolid⟩ := solid char isBlank
          rw [List.dropWhile_cons_of_neg (by simp [isBlank]), List.flatMap_cons, written,
            List.cons_append, List.dropWhile_cons_of_neg (by simp [firstSolid])]

theorem not_isEscaped_of_isBlank {char : Char} (blank : Text.isBlank char = true) :
    isEscaped char = false := by
  by_contra escaped
  rcases isEscaped_iff.mp (Bool.not_eq_false _ ▸ escaped) with rfl | rfl | rfl | rfl | rfl
  all_goals exact absurd blank (by decide)

theorem trimChars_escape (chars : List Char) :
    Text.trimChars (escape chars) = escape (Text.trimChars chars) := by
  have blank (char : Char) (isBlank : Text.isBlank char = true) : escapeChar char = [char] :=
    escapeChar_of_not_isEscaped (not_isEscaped_of_isBlank isBlank)
  have start : Text.trimStart (escape chars) = escape (Text.trimStart chars) := by
    refine dropWhile_isBlank_flatMap blank (fun char solid => ?_) chars
    cases escaped : isEscaped char with
    | false => exact ⟨char, [], escapeChar_of_not_isEscaped escaped, solid⟩
    | true =>
        obtain ⟨written, isWritten, _⟩ := escapeChar_of_isEscaped escaped
        exact ⟨'&', written, isWritten, isBlank_ampersand⟩
  unfold Text.trimChars Text.trimEnd
  have backwards (some : List Char) :
      (escape some).reverse = some.reverse.flatMap (List.reverse ∘ escapeChar) :=
    List.reverse_flatMap
  have forwards (some : List Char) :
      (some.flatMap (List.reverse ∘ escapeChar)).reverse = escape some.reverse := by
    rw [List.reverse_flatMap]
    simp [escape, Function.comp_def]
  rw [start, backwards, dropWhile_isBlank_flatMap, forwards]
  · intro char isBlank
    rw [Function.comp_apply, blank char isBlank]
    rfl
  · intro char solid
    rw [Function.comp_apply]
    cases escaped : isEscaped char with
    | false => exact ⟨char, [], by rw [escapeChar_of_not_isEscaped escaped]; rfl, solid⟩
    | true =>
        obtain ⟨written, isWritten, refers⟩ := escapeChar_of_isEscaped escaped
        obtain ⟨init, last, rfl⟩ := List.eq_nil_or_concat written |>.resolve_left refers.nonempty
        exact ⟨last, init.reverse ++ ['&'], by simp [isWritten], refers.solid last (by simp)⟩

theorem not_isBlank_of_counted : ∀ char ∈ countedChars, Text.isBlank char = false := by
  simpa using show countedChars.any Text.isBlank = false by decide

/-- A value has as many counted references as the value without blanks around it. -/
theorem referenceCount_trimChars (chars : List Char) :
    referenceCount (Text.trimChars chars) = referenceCount chars := by
  obtain ⟨front, back, split, frontBlank, backBlank⟩ := Text.exists_blanks_around chars
  unfold referenceCount
  congr 1
  apply List.map_congr_left
  intro char counted
  have none {blanks : List Char} (areBlank : ∀ own ∈ blanks, Text.isBlank own = true) :
      blanks.count char = 0 := by
    apply List.count_eq_zero.mpr
    intro member
    have solid := not_isBlank_of_counted char counted
    rw [areBlank char member] at solid
    cases solid
  conv_rhs => rw [split, List.count_append, List.count_append, none frontBlank, none backBlank]
  omega

theorem referenceCount_withLineFeeds (chars : List Char) :
    referenceCount (Text.withLineFeeds chars) = referenceCount chars := by
  unfold referenceCount
  congr 1
  apply List.map_congr_left
  intro char counted
  apply Text.count_withLineFeeds
  · rintro rfl
    revert counted
    decide
  · rintro rfl
    revert counted
    decide

theorem not_mem_escapeChar {char : Char} (other : char ≠ '\r') : '\r' ∉ escapeChar char := by
  cases escaped : isEscaped char with
  | false =>
      rw [escapeChar_of_not_isEscaped escaped, List.mem_singleton]
      exact Ne.symm other
  | true =>
      obtain ⟨written, isWritten, refers⟩ := escapeChar_of_isEscaped escaped
      rw [isWritten, List.mem_cons, not_or]
      refine ⟨by decide, fun member => ?_⟩
      have solid := refers.solid _ member
      revert solid
      decide

theorem withLineFeeds_escape (chars : List Char) :
    Text.withLineFeeds (escape chars) = escape (Text.withLineFeeds chars) := by
  fun_induction Text.withLineFeeds chars with
  | case1 => rfl
  | case2 more ih => exact congrArg ('\n' :: ·) ih
  | case3 more lone ih =>
      have loneToo : (escape more).head? ≠ some '\n' := by
        cases more with
        | nil =>
            intro isFeed
            cases isFeed
        | cons char rest =>
            rw [escape_cons]
            cases escaped : isEscaped char with
            | false =>
                rw [escapeChar_of_not_isEscaped escaped]
                intro isFeed
                exact lone rest (congrArg (· :: rest) (Option.some.inj isFeed))
            | true =>
                obtain ⟨written, isWritten, _⟩ := escapeChar_of_isEscaped escaped
                rw [isWritten]
                simp
      exact (Text.withLineFeeds_return loneToo).trans (congrArg ('\n' :: ·) ih)
  | case4 char more _ other ih =>
      rw [escape_cons, Text.withLineFeeds_append_of_not_mem (not_mem_escapeChar other), ih]
      rfl

/-- No quote that could end a value is left in the written one. -/
theorem not_isEscaped_of_mem_escape {chars : List Char} {char : Char}
    (member : char ∈ escape chars) (other : char ≠ '&') : isEscaped char = false := by
  obtain ⟨own, _, inOwn⟩ := List.mem_flatMap.mp member
  cases escaped : isEscaped own with
  | false =>
      rw [escapeChar_of_not_isEscaped escaped, List.mem_singleton] at inOwn
      rwa [inOwn]
  | true =>
      obtain ⟨written, isWritten, refers⟩ := escapeChar_of_isEscaped escaped
      rw [isWritten] at inOwn
      rcases List.mem_cons.mp inOwn with isAmpersand | later
      · exact absurd isAmpersand other
      · exact refers.plain char later

/-! ### Texts between tags -/

/--
A text as it can be written between tags.  Every character may stand for itself, but for the two
with which markup begins, and any that has a reference may be referred to.
-/
inductive Spells : List Char → List Char → Prop
  | nil : Spells [] []
  | itself {char : Char} {text written : List Char} :
      char ≠ '<' → char ≠ '&' → Spells text written → Spells (char :: text) (char :: written)
  | reference {name : String} {char : Char} {text written : List Char} :
      (name, char) ∈ references → Spells text written →
        Spells (char :: text) ('&' :: (name.toList ++ written))

/-- A text is spelled by what is written for it within quotes. -/
theorem spells_escape (text : List Char) : Spells text (escape text) := by
  induction text with
  | nil => exact .nil
  | cons char rest ih =>
      rw [escape_cons]
      cases escaped : isEscaped char with
      | false =>
          have other {own : Char} (isOwn : isEscaped own = true) : char ≠ own :=
            (Text.ne_of_test isOwn escaped).symm
          rw [escapeChar_of_not_isEscaped escaped]
          exact .itself (other rfl) (other rfl) ih
      | true =>
          rcases isEscaped_iff.mp escaped with rfl | rfl | rfl | rfl | rfl
          · exact .reference (show ("amp;", '&') ∈ references by decide) ih
          · exact .reference (show ("gt;", '>') ∈ references by decide) ih
          · exact .reference (show ("lt;", '<') ∈ references by decide) ih
          · exact .reference (show ("apos;", '\'') ∈ references by decide) ih
          · exact .reference (show ("quot;", '"') ∈ references by decide) ih

section Spells

variable {text written : List Char}

theorem decode_of_spells (spells : Spells text written) : decode written = text := by
  induction spells with
  | nil => rw [decode]
  | itself _ other _ ih =>
      rw [decode, if_neg fun same => other (beq_iff_eq.mp same), ih]
  | reference member _ ih => rw [decode_ampersand ((refers_of_mem member).takes _), ih]

theorem not_mem_of_spells (spells : Spells text written) : '<' ∉ written := by
  induction spells with
  | nil => exact List.not_mem_nil
  | itself other _ _ ih => exact fun member => (List.mem_cons.mp member).elim (other ·.symm) ih
  | reference member _ ih =>
      simp only [List.mem_cons, List.mem_append, not_or]
      refine ⟨by decide, fun inName => ?_, ih⟩
      exact Bool.false_ne_true ((refers_of_mem member).plain _ inName).symm

/-- Writing puts no carriage return into a text. -/
theorem return_not_mem_of_spells (spells : Spells text written) (none : '\r' ∉ text) :
    '\r' ∉ written := by
  induction spells with
  | nil => exact none
  | itself _ _ _ ih =>
      rw [List.mem_cons, not_or] at none ⊢
      exact ⟨none.1, ih none.2⟩
  | reference member _ ih =>
      simp only [List.mem_cons, List.mem_append, not_or] at none ⊢
      refine ⟨by decide, fun inName => ?_, ih none.2⟩
      exact Bool.false_ne_true ((refers_of_mem member).solid _ inName).symm

theorem not_isBlank_of_mem_references {name : String} {char : Char}
    (member : (name, char) ∈ references) : Text.isBlank char = false := by
  have all : ∀ entry ∈ references, Text.isBlank entry.2 = false := by decide
  exact all (name, char) member

theorem spells_trimStart (spells : Spells text written) :
    Spells (Text.trimStart text) (Text.trimStart written) := by
  unfold Text.trimStart
  induction spells with
  | nil => exact .nil
  | @itself char _ _ notMark notReference later ih =>
      by_cases blank : Text.isBlank char
      · rwa [List.dropWhile_cons_of_pos blank, List.dropWhile_cons_of_pos blank]
      · rw [List.dropWhile_cons_of_neg blank, List.dropWhile_cons_of_neg blank]
        exact .itself notMark notReference later
  | reference member later _ =>
      rw [List.dropWhile_cons_of_neg (by simp [not_isBlank_of_mem_references member]),
        List.dropWhile_cons_of_neg (by simp [isBlank_ampersand])]
      exact .reference member later

theorem exists_of_spells_append {first second : List Char}
    (spells : Spells (first ++ second) written) :
    ∃ writtenFirst writtenSecond, written = writtenFirst ++ writtenSecond ∧
      Spells first writtenFirst ∧ Spells second writtenSecond := by
  induction first generalizing written with
  | nil => exact ⟨[], written, rfl, .nil, spells⟩
  | cons char rest ih =>
      cases spells with
      | itself notMark notReference later =>
          obtain ⟨front, back, rfl, isFront, isBack⟩ := ih later
          exact ⟨_, back, rfl, .itself notMark notReference isFront, isBack⟩
      | reference member later =>
          obtain ⟨front, back, rfl, isFront, isBack⟩ := ih later
          refine ⟨_, back, ?_, .reference member isFront, isBack⟩
          rw [List.cons_append, List.append_assoc]

/-- The last sign of what is written for a character is a blank only where that is the character. -/
theorem trimEnd_append_of_spells {char : Char} {front back : List Char}
    (spells : Spells [char] back) :
    Text.isBlank char ∧ back = [char] ∨
      Text.isBlank char = false ∧ Text.trimEnd (front ++ back) = front ++ back := by
  cases spells with
  | itself _ _ later =>
      cases later
      cases blank : Text.isBlank char with
      | true => exact .inl ⟨rfl, rfl⟩
      | false => exact .inr ⟨rfl, List.rdropWhile_concat_neg _ _ _ (by simp [blank])⟩
  | @reference name _ _ _ member later =>
      cases later
      have refers := refers_of_mem member
      obtain ⟨init, last, isName⟩ :=
        (List.eq_nil_or_concat name.toList).resolve_left refers.nonempty
      have solid : Text.isBlank last = false := refers.solid last (by simp [isName])
      refine .inr ⟨not_isBlank_of_mem_references member, ?_⟩
      rw [List.append_nil, isName, List.concat_eq_append, ← List.cons_append, ← List.append_assoc]
      exact List.rdropWhile_concat_neg _ _ _ (by simp [solid])

/-- Blanks are written as they are, and nothing else is written as a blank at either end. -/
theorem spells_trimChars (spells : Spells text written) :
    Spells (Text.trimChars text) (Text.trimChars written) := by
  unfold Text.trimChars
  replace spells := spells_trimStart spells
  generalize Text.trimStart text = text at spells ⊢
  generalize Text.trimStart written = written at spells ⊢
  induction text using List.reverseRecOn generalizing written with
  | nil =>
      cases spells
      exact .nil
  | append_singleton init char ih =>
      obtain ⟨front, back, rfl, isFront, isBack⟩ := exists_of_spells_append spells
      rcases @trimEnd_append_of_spells char front back isBack with ⟨blank, rfl⟩ | ⟨solid, whole⟩
      · have shorter (chars : List Char) : Text.trimEnd (chars ++ [char]) = Text.trimEnd chars :=
          List.rdropWhile_concat_pos _ _ _ blank
        rw [shorter, shorter]
        exact ih _ isFront
      · have kept : Text.trimEnd (init ++ [char]) = init ++ [char] :=
          List.rdropWhile_concat_neg _ _ _ (by simp [solid])
        rwa [whole, kept]

end Spells

end Xml
end LadderDiagram
