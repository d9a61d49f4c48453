import LadderDiagram.Text.Units

/-!
# Lines, columns and marks

A place in a text is given by what is left of the text there.  Its line counts
the line feeds before it and its column the units after the last of them.
-/

namespace LadderDiagram
namespace Text

/-- A line and a column, both counted from one. -/
structure Position where
  line : Nat
  column : Nat
  deriving DecidableEq, Repr

def Position.advance (position : Position) (char : Char) : Position :=
  if char == '\n' then ⟨position.line + 1, 1⟩
  else { position with column := position.column + unitCount char }

def Position.after (chars : List Char) : Position :=
  chars.foldl Position.advance ⟨1, 1⟩

/-- The position in a text at which `left` is what is left of it. -/
def Position.of (text left : List Char) : Position :=
  .after (text.take (text.length - left.length))

/-- A text with every carriage return, or pair with a line feed, made a line feed. -/
def withLineFeeds : List Char → List Char
  | [] => []
  | '\r' :: '\n' :: rest => '\n' :: withLineFeeds rest
  | '\r' :: rest => '\n' :: withLineFeeds rest
  | char :: rest => char :: withLineFeeds rest

theorem withLineFeeds_cons {char : Char} (other : char ≠ '\r') (rest : List Char) :
    withLineFeeds (char :: rest) = char :: withLineFeeds rest :=
  withLineFeeds.eq_4 char rest (fun _ isReturn _ => other isReturn) other

theorem withLineFeeds_return {rest : List Char} (lone : rest.head? ≠ some '\n') :
    withLineFeeds ('\r' :: rest) = '\n' :: withLineFeeds rest := by
  apply withLineFeeds.eq_3
  rintro more rfl
  exact lone rfl

theorem withLineFeeds_eq_nil_iff {chars : List Char} : withLineFeeds chars = [] ↔ chars = [] := by
  fun_cases withLineFeeds chars <;> simp

theorem withLineFeeds_append_of_not_mem {chars : List Char} (none : '\r' ∉ chars)
    (rest : List Char) : withLineFeeds (chars ++ rest) = chars ++ withLineFeeds rest := by
  induction chars with
  | nil => rfl
  | cons char more ih =>
      rw [List.mem_cons, not_or] at none
      rw [List.cons_append, withLineFeeds_cons (Ne.symm none.1), ih none.2]
      rfl

/-- Where the second part does not begin with a line feed, no pair is cut. -/
theorem withLineFeeds_append (chars : List Char) {rest : List Char}
    (apart : rest.head? ≠ some '\n') :
    withLineFeeds (chars ++ rest) = withLineFeeds chars ++ withLineFeeds rest := by
  fun_induction withLineFeeds chars with
  | case1 => rfl
  | case2 more ih => exact congrArg ('\n' :: ·) ih
  | case3 more lone ih =>
      have loneToo : (more ++ rest).head? ≠ some '\n' := by
        cases more with
        | nil => exact apart
        | cons char others =>
            intro isFeed
            exact lone others (congrArg (· :: others) (Option.some.inj isFeed))
      rw [List.cons_append, withLineFeeds_return loneToo, ih]
      rfl
  | case4 char more _ other ih =>
      rw [List.cons_append, withLineFeeds_cons other, ih]
      rfl

/-- The pieces of a text between the places of a character. -/
def splitOnChar (mark : Char) (chars : List Char) : List (List Char) :=
  chars.foldr
    (fun char pieces =>
      if char == mark then [] :: pieces
      else
        match pieces with
        | piece :: rest => (char :: piece) :: rest
        | [] => [[char]])
    [[]]

/--
What stands before the first place of a mark and what stands after the mark
there.
-/
def splitAtMark (mark : List Char) : List Char → Option (List Char × List Char)
  | [] => if mark.isEmpty then some ([], []) else none
  | char :: rest =>
      if mark.isPrefixOf (char :: rest) then some ([], (char :: rest).drop mark.length)
      else (splitAtMark mark rest).map fun (before, after) => (char :: before, after)

/-- Nothing but the mark stands between the two parts. -/
theorem eq_of_splitAtMark {mark chars before after : List Char}
    (found : splitAtMark mark chars = some (before, after)) :
    chars = before ++ mark ++ after := by
  induction chars generalizing before with
  | nil =>
      cases mark with
      | nil => simp_all [splitAtMark]
      | cons => simp [splitAtMark] at found
  | cons char rest ih =>
      rw [splitAtMark] at found
      split at found
      next starts =>
        obtain ⟨left, eq⟩ := List.isPrefixOf_iff_prefix.1 starts
        obtain ⟨rfl, rfl⟩ := Prod.mk.inj (Option.some.inj found)
        simp [← eq]
      next =>
        obtain ⟨⟨first, second⟩, inner, eq⟩ := Option.map_eq_some_iff.1 found
        obtain ⟨rfl, rfl⟩ := Prod.mk.inj eq
        rw [ih inner]
        rfl

theorem length_after_mark {mark chars before after : List Char}
    (found : splitAtMark mark chars = some (before, after)) :
    after.length ≤ chars.length := by
  rw [eq_of_splitAtMark found]
  simp only [List.length_append]
  omega

/-- What follows the first place of a mark; nothing if the mark is not there. -/
def dropPast (mark chars : List Char) : List Char :=
  match splitAtMark mark chars with
  | some (_, after) => after
  | none => []

theorem length_dropPast_le (mark chars : List Char) :
    (dropPast mark chars).length ≤ chars.length := by
  unfold dropPast
  split
  next found => exact length_after_mark found
  next => exact Nat.zero_le _

theorem length_dropWhile_le {α : Type} (keep : α → Bool) (items : List α) :
    (items.dropWhile keep).length ≤ items.length :=
  (List.dropWhile_sublist keep).length_le

end Text
end LadderDiagram
