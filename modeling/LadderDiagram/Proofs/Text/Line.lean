import LadderDiagram.Proofs.Text.Trim
import LadderDiagram.Text.Line

/-!
# Line ends

Making every line end a line feed works on the parts of a text one by one where no pair of a
carriage return and a line feed is cut.  It puts nothing into a text but line feeds, so a mark
without one is found in the text only where it was before, and a text that is trimmed stays
trimmed.
-/

namespace LadderDiagram
namespace Text

theorem withLineFeeds_append_cons (chars : List Char) {char : Char} (notFeed : char ≠ '\n')
    (notReturn : char ≠ '\r') (rest : List Char) :
    withLineFeeds (chars ++ char :: rest) =
      withLineFeeds chars ++ char :: withLineFeeds rest := by
  have apart : (char :: rest).head? ≠ some '\n' := fun isFeed => notFeed (Option.some.inj isFeed)
  rw [withLineFeeds_append chars apart, withLineFeeds_cons notReturn]

/-- A text at whose end no pair of a carriage return and a line feed is cut, and what it becomes. -/
def BecomesFed (chars fed : List Char) : Prop :=
  ∀ rest, withLineFeeds (chars ++ rest) = fed ++ withLineFeeds rest

theorem BecomesFed.append {chars fed more moreFed : List Char} (first : BecomesFed chars fed)
    (second : BecomesFed more moreFed) : BecomesFed (chars ++ more) (fed ++ moreFed) := by
  intro rest
  rw [List.append_assoc, first, second, List.append_assoc]

theorem becomesFed_of_not_mem {chars : List Char} (none : '\r' ∉ chars) :
    BecomesFed chars chars :=
  withLineFeeds_append_of_not_mem none

/-- Any text, with a character behind it that is no part of a line end. -/
theorem becomesFed_concat (chars : List Char) (char : Char) (notFeed : char ≠ '\n')
    (notReturn : char ≠ '\r') :
    BecomesFed (chars ++ [char]) (withLineFeeds chars ++ [char]) := by
  intro rest
  rw [List.append_assoc, List.singleton_append,
    withLineFeeds_append_cons chars notFeed notReturn, List.append_assoc,
    List.singleton_append]

/-- A text with every line end made a line feed. -/
def lineFed (text : String) : String := String.ofList (withLineFeeds text.toList)

@[simp]
theorem toList_lineFed (text : String) : (lineFed text).toList = withLineFeeds text.toList :=
  String.toList_ofList

/-- Line ends are blanks, as line feeds are. -/
theorem isBlankText_lineFed (text : String) : isBlankText (lineFed text) = isBlankText text := by
  rw [isBlankText, isBlankText, toList_lineFed]
  fun_induction withLineFeeds text.toList with
  | case1 => rfl
  | case2 more ih => exact ih
  | case3 more _ ih => exact ih
  | case4 char more _ _ ih => rw [List.all_cons, List.all_cons, ih]

theorem isBlank_of_mem_withLineFeeds {chars : List Char} (blank : ∀ char ∈ chars, isBlank char) :
    ∀ char ∈ withLineFeeds chars, isBlank char := by
  have same := isBlankText_lineFed (String.ofList chars)
  rw [isBlankText, isBlankText, toList_lineFed, String.toList_ofList,
    List.all_eq_true.mpr blank] at same
  exact List.all_eq_true.mp same

/-- A character that is no line end is there as often as before. -/
theorem count_withLineFeeds {char : Char} (notFeed : char ≠ '\n') (notReturn : char ≠ '\r')
    (chars : List Char) : (withLineFeeds chars).count char = chars.count char := by
  fun_induction withLineFeeds chars with
  | case1 => rfl
  | case2 more ih =>
      rw [List.count_cons_of_ne notFeed.symm, List.count_cons_of_ne notReturn.symm,
        List.count_cons_of_ne notFeed.symm, ih]
  | case3 more _ ih =>
      rw [List.count_cons_of_ne notFeed.symm, List.count_cons_of_ne notReturn.symm, ih]
  | case4 own more _ _ ih => rw [List.count_cons, List.count_cons, ih]

/-! ### Marks -/

/-- What begins a text with line feeds, and has none itself, begins the text. -/
theorem prefix_of_prefix_withLineFeeds {mark chars : List Char} (noFeed : '\n' ∉ mark)
    (starts : mark <+: withLineFeeds chars) : mark <+: chars := by
  induction mark generalizing chars with
  | nil => exact List.nil_prefix
  | cons first more ih =>
      rw [List.mem_cons, not_or] at noFeed
      fun_cases withLineFeeds chars with
      | case1 => exact starts
      | case2 rest => exact absurd (List.cons_prefix_cons.mp starts).1 (Ne.symm noFeed.1)
      | case3 rest _ =>
          rw [withLineFeeds.eq_3 _ ‹_›] at starts
          exact absurd (List.cons_prefix_cons.mp starts).1 (Ne.symm noFeed.1)
      | case4 char rest _ other =>
          rw [withLineFeeds_cons other] at starts
          obtain ⟨same, later⟩ := List.cons_prefix_cons.mp starts
          exact List.cons_prefix_cons.mpr ⟨same, ih noFeed.2 later⟩

theorem eq_nil_of_prefix_feed {mark rest : List Char} (noFeed : '\n' ∉ mark)
    (starts : mark <+: '\n' :: rest) : mark = [] := by
  cases mark with
  | nil => rfl
  | cons first more =>
      obtain ⟨rfl, _⟩ := List.cons_prefix_cons.mp starts
      exact absurd List.mem_cons_self noFeed

/-- A mark without a line feed is found in a text with line feeds only if it is in the text. -/
theorem infix_of_infix_withLineFeeds {mark chars : List Char} (noFeed : '\n' ∉ mark)
    (found : mark <:+: withLineFeeds chars) : mark <:+: chars := by
  fun_induction withLineFeeds chars with
  | case1 => exact found
  | case2 rest ih =>
      rcases List.infix_cons_iff.mp found with starts | later
      · rw [eq_nil_of_prefix_feed noFeed starts]
        exact List.nil_infix
      · exact List.infix_cons (List.infix_cons (ih later))
  | case3 rest _ ih =>
      rcases List.infix_cons_iff.mp found with starts | later
      · rw [eq_nil_of_prefix_feed noFeed starts]
        exact List.nil_infix
      · exact List.infix_cons (ih later)
  | case4 char rest _ other ih =>
      rcases List.infix_cons_iff.mp found with starts | later
      · rw [← withLineFeeds_cons other] at starts
        exact (prefix_of_prefix_withLineFeeds noFeed starts).isInfix
      · exact List.infix_cons (ih later)

/-- A text is split at the mark in front of which no earlier one begins. -/
theorem splitAtMark_eq {mark : List Char} (before after : List Char)
    (first : ∀ own later, own ++ later = before → later ≠ [] → ¬ mark <+: later ++ mark ++ after) :
    splitAtMark mark (before ++ mark ++ after) = some (before, after) := by
  induction before with
  | nil =>
      cases mark with
      | nil =>
          cases after with
          | nil => rfl
          | cons char rest => simp [splitAtMark]
      | cons char rest => simp [splitAtMark]
  | cons char rest ih =>
      have notHere : ¬ mark.isPrefixOf (char :: (rest ++ mark ++ after)) = true := by
        rw [List.isPrefixOf_iff_prefix]
        exact first [] (char :: rest) rfl (List.cons_ne_nil _ _)
      have later := ih fun own last split => first (char :: own) last (congrArg (char :: ·) split)
      rw [List.cons_append, List.cons_append, splitAtMark, if_neg notHere, later]
      rfl

theorem splitAtMark_of_not_mem {first : Char} {mark before : List Char} (none : first ∉ before)
    (after : List Char) :
    splitAtMark (first :: mark) (before ++ first :: (mark ++ after)) = some (before, after) := by
  have split := @splitAtMark_eq (first :: mark) before after fun own later same nonempty starts => by
    obtain ⟨char, rest, rfl⟩ := List.exists_cons_of_ne_nil nonempty
    obtain ⟨rfl, _⟩ := List.cons_prefix_cons.mp starts
    exact none (same ▸ List.mem_append_right own List.mem_cons_self)
  rwa [List.append_assoc] at split

theorem splitAtMark_singleton {mark : Char} {before : List Char} (none : mark ∉ before)
    (after : List Char) : splitAtMark [mark] (before ++ mark :: after) = some (before, after) :=
  splitAtMark_of_not_mem none after

/-- A mark is not found sooner because of characters with which it does not begin. -/
theorem infix_of_infix_append {first : Char} {mark before chars : List Char}
    (none : first ∉ before) (found : first :: mark <:+: before ++ chars) :
    first :: mark <:+: chars := by
  induction before with
  | nil => exact found
  | cons char rest ih =>
      rw [List.mem_cons, not_or] at none
      rcases List.infix_cons_iff.mp found with starts | later
      · exact absurd (List.cons_prefix_cons.mp starts).1 none.1
      · exact ih none.2 later

theorem dropUnits_unitLength (first rest : List Char) :
    dropUnits (unitLength first) (first ++ rest) = rest := by
  induction first with
  | nil => exact dropUnits_zero rest
  | cons char more ih =>
      have positive := unitCount_pos char
      rw [unitLength_cons, List.cons_append, dropUnits, if_neg (by omega), if_neg (by omega),
        Nat.add_sub_cancel_left, ih]

/-! ### Trimmed texts -/

/-- A text is trimmed if neither its first character nor its last one is a blank. -/
theorem trimChars_eq_self_iff {chars : List Char} :
    trimChars chars = chars ↔
      (∀ char, chars.head? = some char → ¬ isBlank char) ∧
        ∀ char, chars.getLast? = some char → ¬ isBlank char := by
  constructor
  · intro trimmed
    have start := trimStart_trimChars chars
    rw [trimmed] at start
    have last : chars.rdropWhile isBlank = chars := by
      rw [trimChars, start] at trimmed
      exact trimmed
    constructor
    · intro char isFirst
      obtain ⟨rest, rfl⟩ := List.head?_eq_some_iff.mp isFirst
      exact List.dropWhile_eq_self_iff.mp start (Nat.zero_lt_succ _)
    · intro char isLast
      obtain ⟨init, rfl⟩ := List.getLast?_eq_some_iff.mp isLast
      have solid := List.rdropWhile_eq_self_iff.mp last (by simp)
      rwa [List.getLast_concat] at solid
  · rintro ⟨first, last⟩
    have start : trimStart chars = chars := by
      apply List.dropWhile_eq_self_iff.mpr
      exact fun nonempty => first _ (List.head?_eq_getElem? ▸ List.getElem?_eq_getElem nonempty)
    rw [trimChars, start]
    apply List.rdropWhile_eq_self_iff.mpr
    exact fun nonempty => last _ (List.getLast?_eq_some_getLast nonempty)

/-- A trimmed text has no line ends at its ends, so it stays trimmed. -/
theorem trimChars_withLineFeeds {chars : List Char} (trimmed : trimChars chars = chars) :
    trimChars (withLineFeeds chars) = withLineFeeds chars := by
  obtain ⟨first, last⟩ := trimChars_eq_self_iff.mp trimmed
  have notEnd {char : Char} (solid : ¬ isBlank char) : char ≠ '\n' ∧ char ≠ '\r' := by
    constructor <;> rintro rfl <;> exact solid (by decide)
  apply trimChars_eq_self_iff.mpr
  constructor
  · intro char isFirst
    cases chars with
    | nil => cases isFirst
    | cons own rest =>
        have solid := first own rfl
        rw [withLineFeeds_cons (notEnd solid).2] at isFirst
        exact Option.some.inj isFirst ▸ solid
  · intro char isLast
    rcases List.eq_nil_or_concat chars with rfl | ⟨init, own, rfl⟩
    · cases isLast
    · have solid := last own (by simp)
      rw [List.concat_eq_append, withLineFeeds_append_cons init (notEnd solid).1 (notEnd solid).2,
        withLineFeeds, List.getLast?_concat] at isLast
      exact Option.some.inj isLast ▸ solid

end Text
end LadderDiagram
