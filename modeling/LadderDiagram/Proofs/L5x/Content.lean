import LadderDiagram.Proofs.Decimal.Numeral
import LadderDiagram.Proofs.L5x.Seen
import LadderDiagram.Proofs.Xml.Element

/-!
# Contents that are read alike

A text stands in the comment or the text of a rung as it is or in a character section.  A section
shows the text itself.  What stands between the tags is first taken for the value that it writes,
so a numeral is shown as its number is, and a truth value is not shown at all.  The routines are
the same for both where the same text is shown.
-/

namespace LadderDiagram
namespace Xml

/-! ### Texts that are no numerals -/

/-- The characters that a text which is read as a number may have. -/
def inNumeral (char : Char) : Bool := char.isAlphanum || Decimal.isSign char || char == '.'

section NoNumeral

variable {char : Char} (foreign : inNumeral char = false)

theorem mem_dropWhile {chars : List Char} {test : Char → Bool} (member : char ∈ chars)
    (stays : test char = false) : char ∈ chars.dropWhile test := by
  rw [← @List.takeWhile_append_dropWhile _ test chars] at member
  refine (List.mem_append.mp member).resolve_left fun taken => ?_
  rw [List.mem_takeWhile_imp taken] at stays
  cases stays

include foreign

theorem not_isAlphanum_of_foreign : char.isAlphanum = false :=
  (Bool.or_eq_false_iff.mp (Bool.or_eq_false_iff.mp foreign).1).1

theorem ne_of_foreign {own : Char} (isOwn : inNumeral own = true) : char ≠ own :=
  (Text.ne_of_test isOwn foreign).symm

theorem not_isDigit_of_foreign : char.isDigit = false := by
  have none := not_isAlphanum_of_foreign foreign
  rw [Char.isAlphanum, Bool.or_eq_false_iff] at none
  exact none.2

theorem baseDigit?_of_foreign (base : Nat) : Decimal.baseDigit? base char = none := by
  have noLetter := not_isAlphanum_of_foreign foreign
  rw [Char.isAlphanum, Bool.or_eq_false_iff, Char.isAlpha, Bool.or_eq_false_iff] at noLetter
  obtain ⟨⟨notUpper, notLower⟩, notDigit⟩ := noLetter
  have lower : ¬ ('a'.toNat ≤ char.toNat && char.toNat ≤ 'f'.toNat) = true := fun isLower => by
    simp only [Char.isLower, Bool.and_eq_false_iff, decide_eq_false_iff_not, ge_iff_le,
      UInt32.le_iff_toNat_le] at notLower
    simp at isLower notLower
    omega
  have upper : ¬ ('A'.toNat ≤ char.toNat && char.toNat ≤ 'F'.toNat) = true := fun isUpper => by
    simp only [Char.isUpper, decide_eq_false_iff_not, ge_iff_le,
      UInt32.le_iff_toNat_le] at notUpper
    simp at isUpper notUpper
    omega
  unfold Decimal.baseDigit?
  dsimp only
  rw [notDigit, if_neg Bool.false_ne_true, if_neg lower, if_neg upper]
  rfl

theorem baseValue?_of_foreign (base : Nat) {digits : List Char} (member : char ∈ digits) :
    Decimal.baseValue? base digits = none := by
  have starts (value? : Option Nat) : digits.foldl
      (fun value? char => do
        let value ← value?
        let digit ← Decimal.baseDigit? base char
        pure (base * value + digit)) value? = none := by
    induction digits generalizing value? with
    | nil => cases member
    | cons first rest ih =>
        rw [List.foldl_cons]
        rcases List.mem_cons.mp member with rfl | later
        · have stays : ∀ chars : List Char, chars.foldl
              (fun value? char => do
                let value ← value?
                let digit ← Decimal.baseDigit? base char
                pure (base * value + digit)) none = none := fun chars => by
            induction chars with
            | nil => rfl
            | cons _ _ ih => exact ih
          rw [baseDigit?_of_foreign foreign]
          cases value? <;> exact stays rest
        · exact ih later _
  unfold Decimal.baseValue?
  split
  · rfl
  · exact starts _

theorem mem_afterDigits {chars : List Char} (member : char ∈ chars) :
    char ∈ Numeral.afterDigits chars := by
  have stays := mem_dropWhile member (not_isDigit_of_foreign foreign)
  unfold Numeral.afterDigits
  split
  next rest isPoint =>
    rw [isPoint, List.mem_cons] at stays
    exact mem_dropWhile (stays.resolve_left (ne_of_foreign foreign rfl))
      (not_isDigit_of_foreign foreign)
  next => exact stays

/-- A text with such a character has it in its body. -/
theorem mem_body_split {chars : List Char} (member : char ∈ chars) :
    char ∈ (Numeral.split chars).body := by
  have noSign : (char == '-' || char == '+') = false := by
    rw [Bool.or_eq_false_iff, beq_eq_false_iff_ne, beq_eq_false_iff_ne]
    exact ⟨ne_of_foreign foreign rfl, ne_of_foreign foreign rfl⟩
  have unsigned : char ∈ chars.dropWhile fun char => char == '-' || char == '+' :=
    mem_dropWhile member noSign
  refine mem_dropWhile ?_ (beq_eq_false_iff_ne.mpr (ne_of_foreign foreign rfl))
  nth_rewrite 2
    [← @List.takeWhile_append_dropWhile _ (fun char => char == '-' || char == '+') chars]
  rw [List.drop_append_of_le_length (Nat.min_le_left _ _)]
  exact List.mem_append_right _ unsigned

theorem mem_takeSign {chars : List Char} (member : char ∈ chars) :
    char ∈ (Decimal.takeSign chars).2 := by
  unfold Decimal.takeSign
  split
  next => exact (List.mem_cons.mp member).resolve_left (ne_of_foreign foreign rfl)
  next => exact (List.mem_cons.mp member).resolve_left (ne_of_foreign foreign rfl)
  next => exact member

theorem not_isScientific {numeral : Numeral} (member : char ∈ numeral.body) :
    numeral.isScientific = false := by
  have stays := mem_afterDigits foreign member
  unfold Numeral.isScientific
  split
  next mark rest isMark =>
    rw [isMark, List.mem_cons] at stays
    rcases stays with rfl | later
    · have noMark : Numeral.isExponentMark char = false := by
        rw [Numeral.isExponentMark, Bool.or_eq_false_iff, beq_eq_false_iff_ne, beq_eq_false_iff_ne]
        exact ⟨ne_of_foreign foreign rfl, ne_of_foreign foreign rfl⟩
      dsimp only
      rw [noMark]
      rfl
    · have isIn := mem_takeSign foreign later
      have notAll : (Decimal.takeSign rest).2.all Char.isDigit = false :=
        List.all_eq_false.mpr ⟨char, isIn, by simp [not_isDigit_of_foreign foreign]⟩
      dsimp only
      rw [notAll, Bool.and_false]
  next => rfl

/-- A text with a character that no numeral has is read as itself. -/
theorem number?_of_foreign {chars : List Char} (member : char ∈ chars) :
    Numeral.number? chars = none := by
  have inBody := mem_body_split foreign member
  have noHexadecimal : (Numeral.split chars).hexadecimal? = none := by
    unfold Numeral.hexadecimal?
    split
    next digits _ isBody =>
      rw [isBody, List.mem_cons] at inBody
      rw [baseValue?_of_foreign foreign 16 (inBody.resolve_left (ne_of_foreign foreign rfl))]
      rfl
    next => rfl
  have notDecimal : (Numeral.split chars).isDecimal = false :=
    List.isEmpty_eq_false_iff.mpr (List.ne_nil_of_mem (mem_afterDigits foreign inBody))
  unfold Numeral.number?
  dsimp only
  rw [noHexadecimal, not_isScientific foreign inBody, notDecimal]
  by_cases marked : chars.any Numeral.isExponentMark
  · exact if_pos marked
  · exact if_neg marked

theorem ofText_of_foreign {chars : List Char} (member : char ∈ chars) :
    Scalar.ofText chars = .text (String.ofList chars) := by
  have other {word : String} (plain : word.toList.all Char.isAlphanum = true) :
      ¬ (chars == word.toList) = true := fun same => by
    have isWord := List.all_eq_true.mp plain char (beq_iff_eq.mp same ▸ member)
    rw [not_isAlphanum_of_foreign foreign] at isWord
    cases isWord
  rw [Scalar.ofText, if_neg (other (by decide)), if_neg (other (by decide)),
    number?_of_foreign foreign member]

end NoNumeral

end Xml

namespace L5x

open Xml

/-! ### The texts that are shown -/

/--
The text that is found in an element which holds a text between its tags.  What reads as a number
is found as the number shows it, and what reads as a truth value is not found at all, nor is any
text where the element bears attributes.
-/
def shownText? (isBare : Bool) (text : List Char) : Option String :=
  if !isBare then none
  else if (Text.trimChars text).isEmpty then some ""
  else plainText? (.scalar (.ofText (Text.trimChars text)))

/-- Fields that hold nothing but scalars. -/
def AreScalars (fields : List (String × Value)) : Prop :=
  ∀ field ∈ fields, ∃ scalar, field.2 = .scalar scalar

theorem AreScalars.assign {fields : List (String × Value)} (scalars : AreScalars fields)
    (name : String) (scalar : Xml.Scalar) : AreScalars (assign name (.scalar scalar) fields) := by
  induction fields with
  | nil => exact List.forall_mem_singleton.mpr ⟨scalar, rfl⟩
  | cons first rest ih =>
      obtain ⟨isFirst, others⟩ := List.forall_mem_cons.mp scalars
      rw [assign_cons]
      split
      · exact List.forall_mem_cons.mpr ⟨⟨scalar, rfl⟩, others⟩
      · exact List.forall_mem_cons.mpr ⟨isFirst, ih others⟩

theorem AreScalars.routineValues_eq {fields : List (String × Value)} (scalars : AreScalars fields) :
    routineValues (.record fields) = [] := by
  rw [routineValues]
  induction fields with
  | nil => rfl
  | cons first rest ih =>
      obtain ⟨⟨scalar, isScalar⟩, others⟩ := List.forall_mem_cons.mp scalars
      obtain ⟨key, value⟩ := first
      dsimp only at isScalar
      rw [isScalar, routineValuesOfFields, ih others]

/-- Attributes are scalars, and none of them is found where a character section is. -/
theorem AreScalars.foldl_assign {fields : List (String × Value)} (scalars : AreScalars fields)
    (attributes : List (String × String)) {whole : List (String × Value)}
    (isWhole : attributes.foldl
      (fun fields (name, value) => Xml.assign (attributeKey name) (.scalar (.text value)) fields)
      fields = whole) :
    AreScalars whole ∧
      (Value.record whole).field? sectionKey = (Value.record fields).field? sectionKey := by
  induction attributes generalizing fields with
  | nil => exact isWhole ▸ ⟨scalars, rfl⟩
  | cons first rest ih =>
      have other : attributeKey first.1 ≠ sectionKey := by
        intro same
        have begins := congrArg (·.toList.head?) same
        simp [attributeKey, sectionKey] at begins
      obtain ⟨areScalars, sameField⟩ := ih (scalars.assign _ _) isWhole
      exact ⟨areScalars, sameField.trans (field?_assign other _ _)⟩

/-- The value of an element with such nodes. -/
def heldValue (attributes : List (String × String)) (nodes : List Node) : Value :=
  .ofParts (gather isList (nodeEntries isList nodes))
    (filled (joinTexts (nodes.filterMap Node.text?))) attributes

theorem entry_of_plain {name : String} (plain : ¬ (name == textKey || name == attributeMark) = true)
    (attributes : List (String × String)) (nodes : List Node) :
    (Node.element name attributes nodes).entry isList =
      some (name, heldValue attributes nodes) :=
  if_neg plain

theorem entry_element {name : String} (named : name = "Comment" ∨ name = "Text")
    (attributes : List (String × String)) (nodes : List Node) :
    (Node.element name attributes nodes).entry isList =
      some (name, heldValue attributes nodes) := by
  refine entry_of_plain ?_ attributes nodes
  rcases named with rfl | rfl <;> decide

section Held

variable (attributes : List (String × String))

/-- The value of an element that holds more than a text is a record. -/
theorem heldValue_record {fields : List (String × Value)} (scalars : AreScalars fields)
    {text? : Option Value} {areParts : List (String × Value)}
    (isParts : areParts ++ (text?.map (textKey, ·)).toList = fields)
    (isRecord : areParts ≠ [] ∨ attributes ≠ []) :
    elementText? (.ofParts areParts text? attributes) =
        ((Value.record fields).field? sectionKey).bind plainText? ∧
      routineValues (.ofParts areParts text? attributes) = [] := by
  obtain ⟨areScalars, isField⟩ := scalars.foldl_assign attributes rfl
  have isValue : Value.ofParts areParts text? attributes =
      .record (attributes.foldl
        (fun fields (name, value) => Xml.assign (attributeKey name) (.scalar (.text value)) fields)
        fields) := by
    subst isParts
    match areParts, text?, attributes with
    | [], none, [] => simp at isRecord
    | [], some _, [] => simp at isRecord
    | [], none, _ :: _ => rfl
    | [], some _, _ :: _ => rfl
    | _ :: _, _, _ => rfl
  rw [isValue]
  exact ⟨congrArg (·.bind plainText?) isField, areScalars.routineValues_eq⟩

theorem heldValue_characters (text : String) :
    elementText? (heldValue attributes [.characters text]) = some text ∧
      routineValues (heldValue attributes [.characters text]) = [] := by
  have isGathered : gather isList (nodeEntries isList [.characters text]) =
      [(sectionKey, .scalar (.text text))] := gather_single (by decide) _
  have scalars : AreScalars [(sectionKey, .scalar (.text text))] :=
    List.forall_mem_singleton.mpr ⟨_, rfl⟩
  rw [heldValue, isGathered]
  exact heldValue_record attributes scalars rfl (.inl (List.cons_ne_nil _ _))

theorem heldValue_plain (text : List Char) :
    elementText? (heldValue attributes (plainNodes text)) = shownText? attributes.isEmpty text ∧
      routineValues (heldValue attributes (plainNodes text)) = [] := by
  have noEntries : gather isList (nodeEntries isList (plainNodes text)) = [] := by
    have none : nodeEntries isList (plainNodes text) = [] := by
      unfold plainNodes
      split <;> rfl
    rw [none, gather_nil]
  obtain ⟨scalar?, isText, isShown⟩ : ∃ scalar? : Option Xml.Scalar,
      filled (joinTexts ((plainNodes text).filterMap Node.text?)) = scalar?.map .scalar ∧
        shownText? true text = plainText? (.scalar (scalar?.getD (.text ""))) := by
    have bare : shownText? true text = if (Text.trimChars text).isEmpty then some ""
        else plainText? (.scalar (.ofText (Text.trimChars text))) := rfl
    rw [bare, plainNodes]
    by_cases blank : (Text.trimChars text).isEmpty
    · rw [if_pos blank, if_pos blank]
      exact ⟨none, rfl, rfl⟩
    · rw [if_neg blank, if_neg blank]
      cases Xml.Scalar.ofText (Text.trimChars text) with
      | number value => exact ⟨some (.number value), rfl, rfl⟩
      | truth value => exact ⟨some (.truth value), rfl, rfl⟩
      | text own =>
          by_cases isEmpty : own = ""
          · exact ⟨none, by subst isEmpty; rfl, by subst isEmpty; rfl⟩
          · refine ⟨some (.text own), ?_, rfl⟩
            change filled (some (.scalar (.text own))) = _
            unfold filled
            split
            next same =>
              injection same with same
              injection same with same
              injection same with same
              exact absurd same isEmpty
            next => rfl
  rw [heldValue, noEntries, isText]
  match attributes with
  | [] =>
      change _ = shownText? true text ∧ _
      rw [isShown]
      cases scalar? <;> exact ⟨rfl, rfl⟩
  | first :: rest =>
      have scalars : AreScalars (((scalar?.map Value.scalar).map (textKey, ·)).toList) := by
        cases scalar? with
        | none => exact fun _ member => absurd member List.not_mem_nil
        | some scalar => exact List.forall_mem_singleton.mpr ⟨scalar, rfl⟩
      have held := @heldValue_record (first :: rest) _ scalars (scalar?.map .scalar) [] rfl
        (.inr (List.cons_ne_nil _ _))
      refine ⟨held.1.trans ?_, held.2⟩
      cases scalar? <;> rfl

end Held

/-! ### Contents -/

/-- The content of an element that holds a text in one character section, with blanks around it. -/
def IsSection (text content : List Char) : Prop :=
  ∃ lead trail, (∀ char ∈ lead ++ trail, Text.isBlank char) ∧
    content = lead ++ sectionChars text ++ trail

/-- A text that can be written as one character section, and is not changed by its line ends. -/
def IsClean (text : List Char) : Prop := ¬ sectionEnd <:+: text ∧ '\r' ∉ text

theorem isClean_of_not_mem {text : List Char} (noBracket : ']' ∉ text) (noReturn : '\r' ∉ text) :
    IsClean text :=
  ⟨fun ends => noBracket (ends.subset (show ']' ∈ sectionEnd by decide)), noReturn⟩

/--
The content of an element with the text that is found in it.  References are counted where the
text stands between the tags as it is.
-/
inductive Shows (isBare : Bool) : Prop → List Char → Option String → Prop
  | inSection {text content : List Char} : IsClean text → IsSection text content →
      Shows isBare False content (some (String.ofList text))
  | asPlain {text content : List Char} : IsClean text → Spells text content →
      Shows isBare True content (shownText? isBare text)

theorem Shows.exists_holds {isBare : Bool} {counts : Prop} {content : List Char}
    {shown? : Option String} (shows : Shows isBare counts content shown?) :
    ∃ nodes, Holds counts content nodes ∧
      ∀ attributes : List (String × String), attributes.isEmpty = isBare →
        elementText? (heldValue attributes nodes) = shown? := by
  cases shows with
  | inSection clean isSection =>
      obtain ⟨lead, trail, blank, rfl⟩ := isSection
      exact ⟨_, .characters blank clean.1 clean.2,
        fun attributes _ => (heldValue_characters attributes _).1⟩
  | asPlain clean spells =>
      refine ⟨_, .plain spells clean.2, ?_⟩
      rintro attributes rfl
      exact (heldValue_plain attributes _).1

theorem routineValues_heldValue (attributes : List (String × String)) {counts : Prop}
    {content : List Char} {nodes : List Node} (holds : Holds counts content nodes) :
    routineValues (heldValue attributes nodes) = [] := by
  cases holds with
  | characters => exact (heldValue_characters attributes _).2
  | plain => exact (heldValue_plain attributes _).2

/-! ### Documents -/

/-- Whether a document is refused as it is written. -/
def IsMalformed {α : Type} (result : Except ReadError α) : Prop :=
  ∃ report, result = .error (.malformed report)

/-- Whether a document is refused for its references. -/
def IsOverfull {α : Type} (result : Except ReadError α) : Prop :=
  ∃ count, result = .error (.unreadable (.tooManyReferences count))

/-- What two documents are read as is the same, unless neither is well formed. -/
def ReadsAlike {α : Type} (first second : Except ReadError α) : Prop :=
  first = second ∨ IsMalformed first ∧ IsMalformed second

/--
What a document is read as, given the text that is found in an element of it: the text plays no
part, or is that of one rung of one routine, which is passed over where no text is found.
-/
inductive Outlook (name : String) : (Option String → Except ReadError (List Entry)) → Prop
  | refused (fault : TreeFault) : Outlook name fun _ => .error (.unreadable fault)
  | unseen (found : List Entry) : Outlook name fun _ => .ok found
  | seen (first : List Entry) {make : String → Entry} (isEntry : IsEntry name make)
      (last : List Entry) :
      Outlook name fun shown? => .ok (first ++ (shown?.map make).toList ++ last)

/-- A text is found again in what is read, where it plays a part. -/
theorem Outlook.constant_or_injective {name : String}
    {outlook : Option String → Except ReadError (List Entry)} (isOutlook : Outlook name outlook) :
    (∀ first second, outlook first = outlook second) ∨ Function.Injective outlook := by
  cases isOutlook with
  | refused fault => exact .inl fun _ _ => rfl
  | unseen found => exact .inl fun _ _ => rfl
  | @seen first make isEntry last =>
      refine .inr fun shown? shown?' same => Option.map_injective isEntry.injective ?_
      have sameList := List.append_cancel_left (List.append_cancel_right (Except.ok.inj same))
      have sameHead := congrArg List.head? sameList
      rwa [Option.head?_toList, Option.head?_toList] at sameHead

/-- The routines of a tree, or the fault that keeps it from being read. -/
def entriesOf : Except TreeFault (List Node) → Except ReadError (List Entry)
  | .error fault => .error (.unreadable fault)
  | .ok nodes => .ok ((routineValues (.ofDocument isList nodes)).filterMap entry?)

theorem entries_ofList {document : List Char} (passes : check? document = none) :
    entries (String.ofList document) = entriesOf (readTree document) := by
  unfold entries
  rw [String.toList_ofList, passes]
  cases readTree document <;> rfl

theorem isMalformed_entries {document : List Char} (refused : check? document ≠ none) :
    IsMalformed (entries (String.ofList document)) := by
  obtain ⟨report, isReport⟩ := Option.ne_none_iff_exists'.mp refused
  refine ⟨report, ?_⟩
  unfold entries
  rw [String.toList_ofList, isReport]

theorem entries_of_isUpTo {document : List Char} (passes : check? document = none)
    {counts : Prop} {expected : Except TreeFault (List Node)}
    (upTo : IsUpTo counts (readTree document) expected) :
    entries (String.ofList document) = entriesOf expected ∨
      counts ∧ IsOverfull (entries (String.ofList document)) := by
  rw [entries_ofList passes]
  rcases upTo with same | ⟨isCounted, count, isError⟩
  · exact .inl (congrArg entriesOf same)
  · exact .inr ⟨isCounted, count, congrArg entriesOf isError⟩

/-- A document with a content in an element of it. -/
def contentDocument (site : Site) (content : List Char) : String :=
  String.ofList (site.document content)

/-- Whether no content of an element plays a part in the routines that are read. -/
def IsUnread (site : Site) : Prop :=
  ∀ {counts counts' : Prop} {content content' : List Char} {shown? shown?' : Option String},
    Shows site.isBare counts content shown? → Shows site.isBare counts' content' shown?' →
      ¬ IsOverfull (entries (contentDocument site content)) →
        ¬ IsOverfull (entries (contentDocument site content')) →
          entries (contentDocument site content) = entries (contentDocument site content')

/-- Whether a text is found as itself where it stands between the tags of an element. -/
def ShowsItself (isBare : Bool) (text : List Char) : Prop :=
  (shownText? isBare text).map Text.trim = some (Text.trim (String.ofList text))

theorem showsItself_of_foreign {text : List Char}
    (foreign : ∃ char ∈ Text.trimChars text, inNumeral char = false) : ShowsItself true text := by
  obtain ⟨char, member, isForeign⟩ := foreign
  have filled : ¬ (Text.trimChars text).isEmpty = true := fun isEmpty =>
    List.not_mem_nil (List.isEmpty_iff.mp isEmpty ▸ member)
  have shows : shownText? true text = some (String.ofList (Text.trimChars text)) := by
    rw [shownText?, if_neg (by decide), if_neg filled, ofText_of_foreign isForeign member]
    rfl
  rw [ShowsItself, shows, Text.trim, String.toList_ofList, Option.map_some, Text.trim,
    String.toList_ofList, Text.trimChars_trimChars]

theorem ReadsAlike.bind {α β : Type} {first second : Except ReadError α}
    (alike : ReadsAlike first second) (next : α → Except ReadError β) :
    ReadsAlike (first >>= next) (second >>= next) := by
  rcases alike with same | ⟨⟨report, isError⟩, ⟨report', isError'⟩⟩
  · exact .inl (by rw [same])
  · exact .inr ⟨⟨report, by rw [isError]; rfl⟩, ⟨report', by rw [isError']; rfl⟩⟩

theorem not_isOverfull {document : List Char} (isRead : (readTree document).isOk) :
    ¬ IsOverfull (entries (String.ofList document)) := by
  rintro ⟨count, isError⟩
  unfold entries at isError
  rw [String.toList_ofList] at isError
  cases isTree : readTree document with
  | error =>
      rw [isTree] at isRead
      cases isRead
  | ok nodes => cases isReport : check? document <;> simp [isReport, isTree] at isError

theorem isSection_sectionChars (text : List Char) : IsSection text (sectionChars text) :=
  ⟨[], [], by simp, by simp⟩

section Documents

variable {site : Site} (proper : site.IsProper)
  (named : site.name = "Comment" ∨ site.name = "Text")

include proper named

/-- A document is read from the text that is found in an element of it. -/
theorem exists_outlook :
    (∀ {counts : Prop} {content : List Char} {shown? : Option String},
      Shows site.isBare counts content shown? →
        IsMalformed (entries (contentDocument site content))) ∨
    ∃ outlook, Outlook site.name outlook ∧
      ∀ {counts : Prop} {content : List Char} {shown? : Option String},
        Shows site.isBare counts content shown? →
          entries (contentDocument site content) = outlook (shown?.map Text.trim) ∨
            counts ∧ IsOverfull (entries (contentDocument site content)) := by
  by_cases someWell : ∃ counts content nodes, Holds counts content nodes ∧
      check? (site.document content) = none
  swap
  · refine .inl fun {counts content shown?} shows => isMalformed_entries fun passes => someWell ?_
    obtain ⟨nodes, holds, _⟩ := shows.exists_holds
    exact ⟨counts, content, nodes, holds, passes⟩
  right
  obtain ⟨_, _, _, holdsWell, passesWell⟩ := someWell
  have passes {counts : Prop} {content : List Char} {nodes : List Node}
      (holds : Holds counts content nodes) : check? (site.document content) = none := by
    rw [← Option.isNone_iff_eq_none, proper.isNone_check?_eq holds holdsWell, passesWell]
    rfl
  rcases proper.readTree_document with
    ⟨fault, fails⟩ | ⟨left, around, right, attributes, encloses, bare, reads⟩
  · refine ⟨_, .refused fault, fun shows => ?_⟩
    obtain ⟨nodes, holds, _⟩ := shows.exists_holds
    exact entries_of_isUpTo (passes holds) (fails holds)
  have isBare : attributes.isEmpty = site.isBare :=
    Bool.eq_iff_iff.mpr (List.isEmpty_iff.trans bare)
  -- Every content gives one tree of the same family.
  let Held := { nodes : List Node // ∃ counts content, Holds counts content nodes }
  have isSeen : IsSeen site.name
      (fun held : Held => elementText? (heldValue attributes held.1)) site.name
      fun held => heldValue attributes held.1 :=
    isSeen_site named (fun _ => rfl)
      fun ⟨_, _, _, holds⟩ => routineValues_heldValue attributes holds
  have follows := followsAmong_document named
    (.inr ⟨_, _, isSeen, fun held => entry_element named attributes held.1⟩)
    (fun _ => if_neg (by rcases named with isName | isName <;> rw [isName] <;> decide))
    encloses left right
  rcases follows with ⟨found, isFound⟩ | ⟨first, make, last, isEntry, isFound⟩
  · refine ⟨_, .unseen found, fun {counts content shown?} shows => ?_⟩
    obtain ⟨nodes, holds, _⟩ := shows.exists_holds
    have isResult := isFound ⟨nodes, counts, content, holds⟩
    rw [← isResult]
    exact entries_of_isUpTo (passes holds) (reads holds)
  · refine ⟨_, .seen first isEntry last, fun {counts content shown?} shows => ?_⟩
    obtain ⟨nodes, holds, isShown⟩ := shows.exists_holds
    have isResult := isFound ⟨nodes, counts, content, holds⟩
    dsimp only at isResult
    rw [isShown attributes isBare, ← Option.map_map] at isResult
    rw [← isResult]
    exact entries_of_isUpTo (passes holds) (reads holds)

/--
The content of an element is read from the text that is found in it.  So a text gives the same
routines between the tags as it does in a character section where it is found as itself there,
and otherwise gives others, unless the element is not read at all.
-/
theorem contents_read_alike :
    ((∀ {counts : Prop} {content : List Char} {shown? : Option String},
      Shows site.isBare counts content shown? →
        IsMalformed (entries (contentDocument site content))) ∨
      ∃ outlook, Outlook site.name outlook ∧
        ∀ {counts : Prop} {content : List Char} {shown? : Option String},
          Shows site.isBare counts content shown? →
            entries (contentDocument site content) = outlook (shown?.map Text.trim) ∨
              counts ∧ IsOverfull (entries (contentDocument site content))) ∧
    ∀ {text part plain : List Char}, IsClean text → IsSection text part → Spells text plain →
      ¬ IsOverfull (entries (contentDocument site plain)) →
        (ShowsItself site.isBare text →
          (∀ name?, ReadsAlike (readRoutine (contentDocument site plain) name?)
            (readRoutine (contentDocument site part) name?)) ∧
          ReadsAlike (routineNames (contentDocument site plain))
            (routineNames (contentDocument site part))) ∧
        (entries (contentDocument site plain) = entries (contentDocument site part) →
          ShowsItself site.isBare text ∨ IsUnread site ∨
            IsMalformed (entries (contentDocument site part))) := by
  refine ⟨exists_outlook proper named, fun {text part plain} clean isPart spells few => ?_⟩
  rcases exists_outlook proper named with malformed | ⟨outlook, isOutlook, reads⟩
  · have malformedPart := malformed (.inSection clean isPart)
    have alike : ReadsAlike (entries (contentDocument site plain))
        (entries (contentDocument site part)) :=
      .inr ⟨malformed (.asPlain clean spells), malformedPart⟩
    exact ⟨fun _ => ⟨fun name? => alike.bind _, alike.bind _⟩, fun _ => .inr (.inr malformedPart)⟩
  have ofPart := (reads (.inSection clean isPart)).resolve_right fun excess => excess.1
  have ofPlain := (reads (.asPlain clean spells)).resolve_right fun excess => few excess.2
  refine ⟨fun itself => ?_, fun same => ?_⟩
  · have alike : ReadsAlike (entries (contentDocument site plain))
        (entries (contentDocument site part)) :=
      .inl (ofPlain.trans ((congrArg outlook itself).trans ofPart.symm))
    exact ⟨fun name? => alike.bind _, alike.bind _⟩
  · rcases isOutlook.constant_or_injective with constant | injective
    · refine .inr (.inl fun {_ _ content content' _ _} shows shows' few few' => ?_)
      rw [(reads shows).resolve_right fun excess => few excess.2,
        (reads shows').resolve_right fun excess => few' excess.2]
      exact constant _ _
    · exact .inl (injective (ofPlain.symm.trans (same.trans ofPart)))

end Documents

/-- The comment of the one rung of a document. -/
def commentSite : Site where
  before := "<Routine><RLLContent><Rung><Comment>".toList
  name := "Comment"
  isBare := true
  spaces := []
  after := "</Rung></RLLContent></Routine>".toList

theorem isProper_commentSite : commentSite.IsProper where
  opens := by
    have bare : AreWritten [] := ⟨by decide, by decide⟩
    have routine := isFront_nil.opens (show isWord "Routine".toList by decide) bare
    have content := routine.isFront.opens (show isWord "RLLContent".toList by decide) bare
    have rung := content.isFront.opens (show isWord "Rung".toList by decide) bare
    exact rung.isFront.opens (show isWord "Comment".toList by decide) bare
  isWord := by decide
  spaces _ none := absurd none List.not_mem_nil

/-- An ampersand that is referred to gives the comment that a character section gives. -/
theorem ampersand_reads_alike :
    IsClean "Start & stop".toList ∧
      IsSection "Start & stop".toList (sectionChars "Start & stop".toList) ∧
        Spells "Start & stop".toList "Start &amp; stop".toList ∧
          ShowsItself commentSite.isBare "Start & stop".toList ∧
            ¬ IsOverfull (entries (contentDocument commentSite "Start &amp; stop".toList)) ∧
              ReadsAlike
                (readRoutine (contentDocument commentSite "Start &amp; stop".toList) none)
                (readRoutine
                  (contentDocument commentSite (sectionChars "Start & stop".toList)) none) := by
  have clean : IsClean "Start & stop".toList := isClean_of_not_mem (by decide) (by decide)
  have isPart := isSection_sectionChars "Start & stop".toList
  have spells : Spells "Start & stop".toList "Start &amp; stop".toList := spells_escape _
  have itself : ShowsItself commentSite.isBare "Start & stop".toList :=
    showsItself_of_foreign ⟨' ', by decide, by decide⟩
  have few := not_isOverfull
    (show (readTree (commentSite.document "Start &amp; stop".toList)).isOk by decide +kernel)
  exact ⟨clean, isPart, spells, itself, few,
    (((contents_read_alike isProper_commentSite (.inl rfl)).2 clean isPart spells few).1
      itself).1 none⟩

/-- The routine whose one rung has a comment with such nodes. -/
def commentedRoutine (nodes : List Node) : Node :=
  .element "Routine" []
    [.element "RLLContent" [] [.element "Rung" [] [.element "Comment" [] nodes]]]

/-- The pieces of the document whose comment holds one piece. -/
def commentedPieces (content : Piece) : List Piece :=
  [.opening ⟨"Routine", []⟩, .opening ⟨"RLLContent", []⟩, .opening ⟨"Rung", []⟩,
    .opening ⟨"Comment", []⟩, content, .closing, .closing, .closing, .closing]

theorem gather_element {name : String} (areWords : AreWords [name])
    (plain : ¬ (name == textKey || name == attributeMark) = true) (nodes : List Node) :
    gather isList (nodeEntries isList [.element name [] nodes]) =
      [(name, if isList name then .list [heldValue [] nodes] else heldValue [] nodes)] := by
  rw [nodeEntries, entry_of_plain plain]
  exact gather_single areWords _

theorem heldValue_element {name : String} (areWords : AreWords [name])
    (plain : ¬ (name == textKey || name == attributeMark) = true) (nodes : List Node) :
    heldValue [] [.element name [] nodes] =
      .record [(name, if isList name then .list [heldValue [] nodes] else heldValue [] nodes)] := by
  have silent : (Node.element name [] nodes).text? = none :=
    if_neg fun same => plain (Bool.or_eq_true_iff.mpr (.inl same))
  rw [heldValue, gather_element areWords plain, List.filterMap_cons, silent]
  rfl

/-- The value of a rung with a comment. -/
def commentedRung (comment : Value) : Value := .record [("Comment", comment)]

/-- The value of a routine with one rung. -/
def singleRoutine (rung : Value) : Value :=
  .record [("RLLContent", .record [("Rung", .list [rung])])]

theorem entry_commentedRoutine (nodes : List Node) :
    (commentedRoutine nodes).entry isList =
      some ("Routine", singleRoutine (commentedRung (heldValue [] nodes))) := by
  have comment := @heldValue_element "Comment" (by decide) (by decide) nodes
  have rung := @heldValue_element "Rung" (by decide) (by decide) [.element "Comment" [] nodes]
  have content := @heldValue_element "RLLContent" (by decide) (by decide)
    [.element "Rung" [] [.element "Comment" [] nodes]]
  rw [commentedRoutine, entry_of_plain (by decide), content, rung, comment]
  rfl

theorem ofDocument_commentedRoutine (nodes : List Node) :
    Value.ofDocument isList [commentedRoutine nodes] =
      .record [("Routine", .list [singleRoutine (commentedRung (heldValue [] nodes))])] := by
  rw [Value.ofDocument, nodeEntries, entry_commentedRoutine]
  exact congrArg Value.record (gather_single (by decide) _)

theorem rung?_commentedRung (comment : Value) :
    rung? (commentedRung comment) = (elementText? comment).map fun text =>
      ⟨some "", (some (Text.trim text)).filter (!·.isEmpty)⟩ := by
  have isComment : fieldText? (commentedRung comment) "Comment" =
      (elementText? comment).map some := rfl
  rw [commentedRung] at isComment ⊢
  rw [rung?_record, isComment]
  cases elementText? comment <;> rfl

theorem entry?_singleRoutine (rung : Value) :
    entry? (singleRoutine rung) = (rung? rung).map fun source => ⟨none, [source]⟩ := by
  have areRungs : rungs? (singleRoutine rung) = [rung].mapM rung? := rfl
  rw [singleRoutine] at areRungs ⊢
  rw [entry?_record, areRungs, List.mapM_cons]
  cases rung? rung <;> rfl

/-- The routine is found with its comment, or not at all where the comment has no text. -/
theorem entries_commentSite {content : List Char} {nodes : List Node}
    (passes : check? (commentSite.document content) = none)
    (isRead : readTree (commentSite.document content) = .ok [commentedRoutine nodes]) :
    entries (contentDocument commentSite content) =
      .ok ((elementText? (heldValue [] nodes)).map fun text =>
        ⟨none, [⟨some "", (some (Text.trim text)).filter (!·.isEmpty)⟩]⟩).toList := by
  have found (routine : Value) :
      routineValues (.record [("Routine", .list [routine])]) = [routine] := rfl
  rw [contentDocument, entries_ofList passes, isRead, entriesOf, ofDocument_commentedRoutine, found,
    List.filterMap_cons, entry?_singleRoutine, rung?_commentedRung]
  cases elementText? (heldValue [] nodes) <;> rfl

/-- A comment that reads as a truth value is lost with its routine where it stands as it is. -/
theorem true_comment_lost :
    commentSite.IsProper ∧ IsClean "true".toList ∧
      IsSection "true".toList (sectionChars "true".toList) ∧ Spells "true".toList "true".toList ∧
        readRoutine (contentDocument commentSite (sectionChars "true".toList)) none =
            .ok ⟨none, [⟨some "", some "true"⟩]⟩ ∧
          readRoutine (contentDocument commentSite "true".toList) none = .error .noRoutine := by
  have isPart := isSection_sectionChars "true".toList
  have clean : IsClean "true".toList := isClean_of_not_mem (by decide) (by decide)
  refine ⟨isProper_commentSite, clean, isPart, spells_escape "true".toList, ?_, ?_⟩
  · have isPieces : pieces (Text.withLineFeeds
        (commentSite.document (sectionChars "true".toList))) =
          commentedPieces (.characters "true") := by decide +kernel
    have isRead : readTree (commentSite.document (sectionChars "true".toList)) =
        .ok [commentedRoutine [.characters "true"]] := by
      rw [readTree, isPieces]
      rfl
    have isEntries := entries_commentSite (by decide +kernel) isRead
    rw [(heldValue_characters [] "true").1] at isEntries
    rw [readRoutine, isEntries]
    rfl
  · have isPieces : pieces (Text.withLineFeeds (commentSite.document "true".toList)) =
        commentedPieces (.text "true".toList) := by decide +kernel
    have isCount : countReferences 0 "true".toList = .ok 0 := by decide +kernel
    have isText : decode "true".toList = "true".toList := decode_of_spells (spells_escape _)
    have isDecoded (opened : List OpenElement) :
        Builder.decoded ⟨[], opened, false, [], 0⟩ "true".toList =
          .ok ("true".toList, ⟨[], opened, false, [], 0⟩) := by
      rw [Builder.decoded, isCount, isText]
    have isRead : readTree (commentSite.document "true".toList) =
        .ok [commentedRoutine (plainNodes "true".toList)] := by
      rw [readTree, isPieces]
      change (((Builder.decoded ⟨[], [⟨"Comment", [], []⟩, ⟨"Rung", [], []⟩,
        ⟨"RLLContent", [], []⟩, ⟨"Routine", [], []⟩], false, [], 0⟩ "true".toList >>= _).map
          Builder.close) >>= _).map _ = _
      rw [isDecoded]
      rfl
    have isEntries := entries_commentSite (by decide +kernel) isRead
    rw [(heldValue_plain [] "true".toList).1] at isEntries
    rw [readRoutine, isEntries]
    rfl

end L5x
end LadderDiagram
