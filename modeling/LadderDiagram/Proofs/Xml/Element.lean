import LadderDiagram.Action
import LadderDiagram.Proofs.Xml.Check
import LadderDiagram.Proofs.Xml.Site

/-!
# An element whose content is exchanged

A text may stand in an element as it is, with its markup characters as references, or in a
character section.  The document around the element is read alike: it passes the check or not
whatever the content is, and its tree is the same but for what the element itself holds.
-/

namespace LadderDiagram
namespace Xml

namespace Builder

/-! ### An element that is opened -/

section Elements

variable {builder after : Builder}

theorem takeAll_append (builder : Builder) (first second : List Piece) :
    builder.takeAll (first ++ second) = builder.takeAll first >>= (·.takeAll second) := by
  induction first generalizing builder with
  | nil => rfl
  | cons piece rest ih =>
      rw [List.cons_append, takeAll, takeAll, bind_assoc]
      exact congrArg (builder.take piece >>= ·) (funext fun after => ih after)

theorem eq_of_decoded {chars text : List Char}
    (isDecoded : builder.decoded chars = .ok (text, after)) :
    after = { builder with references := after.references } := by
  unfold Builder.decoded at isDecoded
  split at isDecoded
  · obtain ⟨_, rfl⟩ := Prod.mk.inj (Except.ok.inj isDecoded)
    rfl
  · cases isDecoded

theorem eq_of_decodedAttributes {written : List (String × List Char)}
    {attributes : List (String × String)}
    (isDecoded : builder.decodedAttributes written = .ok (attributes, after)) :
    after = { builder with references := after.references } ∧
      attributes.length = written.length := by
  induction written generalizing builder attributes with
  | nil =>
      obtain ⟨rfl, rfl⟩ := Prod.mk.inj (Except.ok.inj isDecoded)
      exact ⟨rfl, rfl⟩
  | cons field rest ih =>
      obtain ⟨⟨value, between⟩, isValue, isRest⟩ := exists_of_bind isDecoded
      obtain ⟨⟨others, last⟩, isOthers, isBoth⟩ := exists_of_bind isRest
      obtain ⟨rfl, rfl⟩ := Prod.mk.inj (Except.ok.inj isBoth)
      obtain ⟨same, sameLength⟩ := ih isOthers
      rw [eq_of_decoded isValue] at same
      exact ⟨same, congrArg (· + 1) sameLength⟩

theorem pending_of_flush (flushed : builder.flush = .ok after) : after.pending = [] := by
  unfold flush at flushed
  dsimp only at flushed
  split at flushed
  · exact Except.ok.inj flushed ▸ rfl
  · obtain ⟨⟨text, counted⟩, isDecoded, isAdded⟩ := exists_of_bind flushed
    rw [← Except.ok.inj isAdded, pending_add, eq_of_decoded isDecoded]

theorem pending_of_flushWithin (flushed : builder.flushWithin = .ok after) :
    after.pending = [] := by
  unfold flushWithin at flushed
  split at flushed
  · exact pending_of_flush flushed
  · exact Except.ok.inj flushed ▸ rfl

/-- Behind an opening tag its element is open, with nothing in it yet. -/
theorem exists_of_take_opening {head : TagHead} (taken : builder.take (.opening head) = .ok after) :
    after.closed = false ∧ after.pending = [] ∧ ∃ attributes outer,
      attributes.length = head.attributes.length ∧
        after.opened = ⟨head.name, attributes, []⟩ :: outer := by
  obtain ⟨flushed, isFlushed, isOpened⟩ := exists_of_bind taken
  have settled := pending_of_flushWithin isFlushed
  unfold openElement at isOpened
  split at isOpened
  · cases isOpened
  · obtain ⟨⟨attributes, counted⟩, isDecoded, isAfter⟩ := exists_of_bind isOpened
    obtain ⟨same, sameLength⟩ := eq_of_decodedAttributes isDecoded
    dsimp only at isAfter
    split at isAfter
    · cases isAfter
    · rename_i isOpen
      obtain rfl := Except.ok.inj isAfter
      refine ⟨Bool.eq_false_iff.mpr isOpen, ?_, attributes, counted.opened, sameLength, rfl⟩
      rw [same]
      exact settled

end Elements

end Builder

/-! ### Its content -/

/-- The nodes that a text between tags is read as. -/
def plainNodes (text : List Char) : List Node :=
  if (Text.trimChars text).isEmpty then [] else [.value (.ofText (Text.trimChars text))]

/--
The content of an element as it is written, with the nodes that it is read as: a text in one
character section, which may have blanks around it, or between the tags as it is.  References are
counted in the latter only.
-/
inductive Holds : Prop → List Char → List Node → Prop
  | characters {lead text trail : List Char} :
      (∀ char ∈ lead ++ trail, Text.isBlank char) → ¬ sectionEnd <:+: text → '\r' ∉ text →
        Holds False (lead ++ sectionChars text ++ trail) [.characters (String.ofList text)]
  | plain {text written : List Char} :
      Spells text written → '\r' ∉ text → Holds True written (plainNodes text)

namespace Holds

variable {counts : Prop} {content : List Char} {nodes : List Node}

theorem mark_not_mem_of_isBlank {chars : List Char} (blank : ∀ char ∈ chars, Text.isBlank char) :
    '<' ∉ chars :=
  fun member => absurd (blank _ member) (by decide)

/-- A text has nothing but blanks where what is written has. -/
theorem isEmpty_trimChars_of_spells {text written : List Char} (spells : Spells text written) :
    (Text.trimChars written).isEmpty = (Text.trimChars text).isEmpty := by
  have trimmed := spells_trimChars spells
  generalize Text.trimChars text = text at trimmed ⊢
  generalize Text.trimChars written = written at trimmed ⊢
  cases trimmed <;> rfl

section Closing

variable {name : String} {attributes : List (String × String)} {outer : List OpenElement}
  {document : List Node} {references : Nat} {closing : List Char}

theorem takeAll_characters {lead text trail : List Char}
    (blank : ∀ char ∈ lead ++ trail, Text.isBlank char) (whole : ¬ sectionEnd <:+: text)
    (noBracket : '>' ∉ closing) (rest : List Char) :
    Builder.takeAll ⟨document, ⟨name, attributes, []⟩ :: outer, false, [], references⟩
        (pieces (lead ++ sectionChars text ++ trail ++ '<' :: '/' :: (closing ++ '>' :: rest))) =
      (Builder.add ⟨document, outer, false, [], references⟩
        (.element name attributes [.characters (String.ofList text)])).takeAll (pieces rest) := by
  obtain ⟨blankLead, blankTrail⟩ := List.forall_mem_append.mp blank
  have front := Builder.leads_text
    ⟨document, ⟨name, attributes, []⟩ :: outer, false, [], references⟩ lead
    (mark_not_mem_of_isBlank blankLead)
  have part := @Builder.IsReady.leads_section
    ⟨document, ⟨name, attributes, []⟩ :: outer, false, lead, references⟩ ⟨rfl, blankLead⟩ _ whole
  have back := Builder.leads_text
    ⟨document, ⟨name, attributes, [.characters (String.ofList text)]⟩ :: outer, false, [],
      references⟩ trail (mark_not_mem_of_isBlank blankTrail)
  have ends := @Builder.IsReady.take_closing
    ⟨document, ⟨name, attributes, [.characters (String.ofList text)]⟩ :: outer, false, trail,
      references⟩ ⟨rfl, blankTrail⟩
  refine ((front.trans part).trans back _).trans ?_
  rw [pieces_closing noBracket]
  exact congrArg (fun taken => taken >>= (·.takeAll (pieces rest))) ends

theorem takeAll_plain {text written : List Char} (spells : Spells text written)
    (noBracket : '>' ∉ closing) :
    ∃ further, ∀ rest,
      IsUpTo True
        (Builder.takeAll ⟨document, ⟨name, attributes, []⟩ :: outer, false, [], references⟩
          (pieces (written ++ '<' :: '/' :: (closing ++ '>' :: rest))))
        ((Builder.counting (Builder.add ⟨document, outer, false, [], references⟩
          (.element name attributes (plainNodes text))) further).takeAll (pieces rest)) := by
  have front := Builder.leads_text
    ⟨document, ⟨name, attributes, []⟩ :: outer, false, [], references⟩ written
    (not_mem_of_spells spells)
  have sameEmpty := isEmpty_trimChars_of_spells spells
  have isText := decode_of_spells (spells_trimChars spells)
  -- The references of the text are the ones that its end counts.
  obtain ⟨further, flushed⟩ : ∃ further, IsUpTo True
      (Builder.flush ⟨document, ⟨name, attributes, []⟩ :: outer, false, written, references⟩)
      (.ok ⟨document, ⟨name, attributes, plainNodes text⟩ :: outer, false, [],
        references + further⟩) := by
    unfold Builder.flush plainNodes
    dsimp only
    rw [sameEmpty]
    split
    · exact ⟨0, .inl rfl⟩
    · rw [Builder.decoded, isText]
      dsimp only
      cases isCount : countReferences references (Text.trimChars written) with
      | error count => exact ⟨0, .inr ⟨trivial, count, rfl⟩⟩
      | ok total =>
          obtain ⟨further, rfl⟩ : ∃ further, total = references + further := by
            have counted := Builder.countReferences_add 0 references (Text.trimChars written)
            rw [Nat.zero_add, isCount] at counted
            rcases counted with same | ⟨_, _, isError⟩
            · obtain ⟨own, _, isTotal⟩ := exists_of_bind same.symm
              exact ⟨own, (Except.ok.inj isTotal).symm.trans (Nat.add_comm own references)⟩
            · cases isError
          exact ⟨further, .inl rfl⟩
  have closes : Builder.close ⟨document, ⟨name, attributes, plainNodes text⟩ :: outer, false, [],
      references + further⟩ =
        Builder.counting (Builder.add ⟨document, outer, false, [], references⟩
          (.element name attributes (plainNodes text))) further := by
    have single : (plainNodes text).reverse = plainNodes text := by
      unfold plainNodes
      split <;> rfl
    rw [Builder.close]
    dsimp only [OpenElement.node]
    rw [single]
    cases outer <;> rfl
  refine ⟨further, fun rest => ?_⟩
  have read := front ('<' :: '/' :: (closing ++ '>' :: rest))
  rw [pieces_closing noBracket] at read
  rw [read, ← closes]
  exact (flushed.bind fun after => .ok after.close).bind (·.takeAll (pieces rest))

/-- The closing tag ends the element, which holds what its content is read as. -/
theorem takeAll_closing (holds : Holds counts content nodes) (noBracket : '>' ∉ closing) :
    ∃ further, (0 < further → counts) ∧ ∀ rest,
      IsUpTo counts
        (Builder.takeAll ⟨document, ⟨name, attributes, []⟩ :: outer, false, [], references⟩
          (pieces (content ++ '<' :: '/' :: (closing ++ '>' :: rest))))
        ((Builder.counting (Builder.add ⟨document, outer, false, [], references⟩
          (.element name attributes nodes)) further).takeAll (pieces rest)) := by
  cases holds with
  | characters blank whole _ =>
      exact ⟨0, fun positive => absurd positive (Nat.lt_irrefl 0),
        fun rest => .inl (takeAll_characters blank whole noBracket rest)⟩
  | plain spells _ =>
      obtain ⟨further, leads⟩ := takeAll_plain spells noBracket
      exact ⟨further, fun _ => trivial, leads⟩

end Closing

/-- Making line ends line feeds leaves a content that holds the same. -/
theorem exists_withLineFeeds (holds : Holds counts content nodes) :
    ∃ fed, Holds counts fed nodes ∧
      ∀ rest, Text.withLineFeeds (content ++ '<' :: rest) =
        fed ++ '<' :: Text.withLineFeeds rest := by
  have notFeed : '<' ≠ '\n' := by decide
  have notReturn : '<' ≠ '\r' := by decide
  cases holds with
  | @characters lead text trail blank whole noReturn =>
      obtain ⟨blankLead, blankTrail⟩ := List.forall_mem_append.mp blank
      have blankFed := List.forall_mem_append.mpr
        ⟨Text.isBlank_of_mem_withLineFeeds blankLead,
          Text.isBlank_of_mem_withLineFeeds blankTrail⟩
      refine ⟨_, .characters blankFed whole noReturn, fun rest => ?_⟩
      obtain ⟨more, begins⟩ : ∃ more, sectionChars text = '<' :: more := ⟨_, rfl⟩
      have apart : (sectionChars text ++ (trail ++ '<' :: rest)).head? ≠ some '\n' := by
        rw [begins]
        exact fun isFeed => notFeed (Option.some.inj isFeed)
      have noReturnBetween : '\r' ∉ sectionChars text := by
        rw [sectionChars_eq, List.mem_append, List.mem_append, not_or, not_or]
        exact ⟨by decide, noReturn, by decide⟩
      rw [List.append_assoc, List.append_assoc, Text.withLineFeeds_append lead apart,
        Text.withLineFeeds_append_of_not_mem noReturnBetween,
        Text.withLineFeeds_append_cons trail notFeed notReturn, List.append_assoc,
        List.append_assoc]
  | plain spells noReturn =>
      refine ⟨content, .plain spells noReturn, fun rest => ?_⟩
      rw [Text.withLineFeeds_append_of_not_mem (return_not_mem_of_spells spells noReturn),
        Text.withLineFeeds_cons notReturn]

/-- A content changes nothing that the check knows of the element around it. -/
theorem passes (holds : Holds counts content nodes) (names : List (List Char)) :
    Passes ⟨names, true, false⟩ content ⟨names, true, false⟩ := by
  have blanks {chars : List Char} (blank : ∀ char ∈ chars, Text.isBlank char) :
      Spells chars chars := by
    induction chars with
    | nil => exact .nil
    | cons char rest ih =>
        obtain ⟨first, others⟩ := List.forall_mem_cons.mp blank
        have other {sign : Char} (isSign : Text.isBlank sign = false) : char ≠ sign :=
          Text.ne_of_test first isSign
        exact .itself (other (by decide)) (other (by decide)) (ih others)
  cases holds with
  | characters blank whole _ =>
      obtain ⟨blankLead, blankTrail⟩ := List.forall_mem_append.mp blank
      exact ((passes_spelled (blanks blankLead)).trans (passes_section whole _)).trans
        (passes_spelled (blanks blankTrail))
  | plain spells _ => exact passes_spelled spells

end Holds

/-! ### Documents -/

/-- An element of a document whose content is left out. -/
structure Site where
  /-- The document up to the content, with the tag that opens the element. -/
  before : List Char
  name : String
  /-- Whether the element bears no attributes. -/
  isBare : Bool
  /-- What stands behind the name in the tag that closes the element. -/
  spaces : List Char
  /-- The document behind the element. -/
  after : List Char

/--
The beginning of a document up to a place where a tag may stand: the check and the reader have
taken what is before the place, and both go on with whatever tag stands there.
-/
structure IsFront (before : List Char) : Prop where
  read : ∃ front, ∀ first rest, first.isAlpha →
    pieces (Text.withLineFeeds (before ++ '<' :: first :: rest)) =
      front ++ pieces (Text.withLineFeeds ('<' :: first :: rest))
  passed : ∃ names tagSeen, ∀ first rest, first.isAlpha →
    ∃ progress : Progress, progress.shown = ⟨names, tagSeen, false⟩ ∧
      pass .start true (withoutMark (before ++ '<' :: first :: rest)) =
        pass progress false ('<' :: first :: rest)

/--
The beginning of a document up to the content of an element: however the document goes on, the
tag of the element is what the reader has taken last, and is the innermost one that the check
knows to be open.
-/
structure Opens (before : List Char) (name : String) (isBare : Bool) : Prop where
  read : ∃ front head, head.name = name ∧ (head.attributes = [] ↔ isBare) ∧ ∀ rest,
    pieces (Text.withLineFeeds (before ++ rest)) =
      front ++ .opening head :: pieces (Text.withLineFeeds rest)
  passed : ∃ names, ∀ rest, ∃ progress : Progress,
    progress.shown = ⟨name.toList :: names, true, false⟩ ∧
      pass .start true (withoutMark (before ++ rest)) = pass progress false rest

theorem isFront_nil : IsFront [] where
  read := ⟨[], fun _ _ _ => rfl⟩
  passed := by
    refine ⟨[], false, fun first rest letter => ⟨.start, rfl, ?_⟩⟩
    have other {sign : Char} (isSign : sign.isAlpha = false) : first ≠ sign :=
      Text.ne_of_test letter isSign
    have notQuestion (more : List Char) (same : first :: rest = '?' :: more) : False :=
      other (by decide) (List.cons.inj same).1
    have notMark (more : List Char) (same : first :: rest = '!' :: more) : False :=
      other (by decide) (List.cons.inj same).1
    exact (pass.eq_4 .start true _ notQuestion notMark).trans
      (pass.eq_4 .start false _ notQuestion notMark).symm

section Fronts

variable {before : List Char} {name : String} {attributes : List (String × String)}

/-- A tag that is written as the printer does opens its element. -/
theorem IsFront.opens (isFront : IsFront before) (isWord : isWord name.toList)
    (written : AreWritten attributes) :
    Opens (before ++ '<' :: (name.toList ++ (attributesChars attributes ++ ['>']))) name
      attributes.isEmpty := by
  obtain ⟨front, read⟩ := isFront.read
  obtain ⟨names, tagSeen, passed⟩ := isFront.passed
  obtain ⟨first, more, isName, letter, _⟩ := exists_of_isWord isWord
  have joined (rest : List Char) :
      before ++ '<' :: (name.toList ++ (attributesChars attributes ++ ['>'])) ++ rest =
        before ++ '<' :: first :: (more ++ (attributesChars attributes ++ '>' :: rest)) := by
    simp [isName]
  refine ⟨⟨front, writtenHead name (mapValues Text.withLineFeeds attributes), rfl, ?_,
    fun rest => ?_⟩, ⟨names, fun rest => ?_⟩⟩
  · simp [writtenHead, mapValues]
  · have bracket : Text.BecomesFed ['>'] ['>'] := Text.becomesFed_of_not_mem (by decide)
    have sign : Text.BecomesFed ['<'] ['<'] := Text.becomesFed_of_not_mem (by decide)
    have tag := (sign.append ((becomesFed_of_isWord isWord).append
      ((becomesFed_attributesChars written.words).append bracket))) rest
    have isRead := pieces_opening isWord (written.mapValues Text.withLineFeeds).words
      (Text.withLineFeeds rest)
    rw [joined, read first _ letter]
    simp only [isName, List.append_assoc, List.cons_append, List.nil_append] at tag isRead
    rw [tag, isRead]
  · have tag : Passes ⟨names, tagSeen, false⟩ _ _ := passes_opening isWord written
    obtain ⟨progress, shown, starts⟩ :=
      passed first (more ++ (attributesChars attributes ++ '>' :: rest)) letter
    obtain ⟨later, shownLater, passedTag⟩ := tag progress shown rest
    refine ⟨later, shownLater, ?_⟩
    rw [joined, starts, ← passedTag]
    simp [isName]

/-- Behind the tag of an element there is a place for a tag again. -/
theorem Opens.isFront {isBare : Bool} (opens : Opens before name isBare) : IsFront before := by
  obtain ⟨front, head, _, _, read⟩ := opens.read
  obtain ⟨names, passed⟩ := opens.passed
  refine ⟨⟨front ++ [.opening head], fun first rest _ => ?_⟩,
    ⟨name.toList :: names, true, fun first rest _ => passed ('<' :: first :: rest)⟩⟩
  rw [read, List.append_assoc]
  rfl

end Fronts

namespace Site

/-- The document with a content in the element. -/
def document (site : Site) (content : List Char) : List Char :=
  site.before ++ (content ++
    '<' :: '/' :: (site.name.toList ++ (site.spaces ++ '>' :: site.after)))

/-- An element that is opened in the root of a document, and closed by its name. -/
structure IsProper (site : Site) : Prop where
  opens : Opens site.before site.name site.isBare
  isWord : isWord site.name.toList
  spaces : ∀ char ∈ site.spaces, isSpace char

variable {site : Site}

/-- Whether a document passes the check, given what it has made of a text. -/
def ends (text : List Char) : Except Fault Progress → Bool
  | .error _ => false
  | .ok progress => (progress.atEnd text).isNone

theorem isNone_check? (document : List Char) :
    (check? document).isNone =
      ends (withoutMark document) (pass .start true (withoutMark document)) := by
  unfold check? ends
  dsimp only
  cases pass .start true (withoutMark document) <;> simp

theorem ends_eq {first second : Except Fault Progress} (same : verdict first = verdict second)
    (text text' : List Char) : ends text first = ends text' second := by
  cases first <;> cases second
  · rfl
  · cases same
  · cases same
  · exact isNone_atEnd (Option.some.inj same) text text'

/-- What the check knows behind the element does not depend on what the element holds. -/
theorem IsProper.exists_pass (proper : site.IsProper) :
    ∃ shown, ∀ {counts : Prop} {content : List Char} {nodes : List Node},
      Holds counts content nodes → ∃ progress : Progress, progress.shown = shown ∧
        pass .start true (withoutMark (site.document content)) =
          pass progress false site.after := by
  obtain ⟨names, passed⟩ := proper.opens.passed
  refine ⟨⟨names, true, names.isEmpty⟩, fun {counts content nodes} holds => ?_⟩
  have within := (holds.passes (site.name.toList :: names)).trans
    (passes_closing proper.isWord proper.spaces)
  obtain ⟨progress, shown, starts⟩ := passed (content ++
    '<' :: '/' :: (site.name.toList ++ (site.spaces ++ '>' :: site.after)))
  obtain ⟨later, shownLater, passedElement⟩ := within progress shown site.after
  refine ⟨later, shownLater, starts.trans ?_⟩
  simpa using passedElement

/-- Whether a document passes the check does not depend on what the element holds. -/
theorem IsProper.isNone_check?_eq (proper : site.IsProper) {counts counts' : Prop}
    {content content' : List Char} {nodes nodes' : List Node} (holds : Holds counts content nodes)
    (holds' : Holds counts' content' nodes') :
    (check? (site.document content)).isNone = (check? (site.document content')).isNone := by
  obtain ⟨shown, passed⟩ := proper.exists_pass
  obtain ⟨progress, isShown, isPass⟩ := passed holds
  obtain ⟨progress', isShown', isPass'⟩ := passed holds'
  rw [isNone_check?, isNone_check?, isPass, isPass']
  exact ends_eq (verdict_pass (isShown.trans isShown'.symm) false site.after) _ _

/-- The pieces of a document are those of its front, of the element and of what is behind. -/
theorem IsProper.exists_pieces (proper : site.IsProper) :
    ∃ front head closing, head.name = site.name ∧ (head.attributes = [] ↔ site.isBare) ∧
      '>' ∉ closing ∧ ∀ {counts : Prop} {content : List Char} {nodes : List Node},
        Holds counts content nodes → ∃ fed, Holds counts fed nodes ∧
          pieces (Text.withLineFeeds (site.document content)) =
            front ++ .opening head ::
              pieces (fed ++ '<' :: '/' :: (closing ++ '>' :: Text.withLineFeeds site.after)) := by
  obtain ⟨front, head, sameName, bare, read⟩ := proper.opens.read
  have areBlank := Text.isBlank_of_mem_withLineFeeds fun char member =>
    isBlank_of_isSpace (proper.spaces char member)
  refine ⟨front, head, site.name.toList ++ Text.withLineFeeds site.spaces, sameName, bare, ?_,
    fun {counts content nodes} holds => ?_⟩
  · rw [List.mem_append, not_or]
    exact ⟨not_mem_of_isWord proper.isWord rfl,
      fun member => absurd (areBlank _ member) (by decide)⟩
  · obtain ⟨fed, holdsFed, isFed⟩ := holds.exists_withLineFeeds
    refine ⟨fed, holdsFed, ?_⟩
    have stroke : Text.BecomesFed ['/'] ['/'] := Text.becomesFed_of_not_mem (by decide)
    have closing := (stroke.append (becomesFed_of_isWord proper.isWord))
      (site.spaces ++ '>' :: site.after)
    rw [Text.withLineFeeds_append_cons _ (by decide) (by decide)] at closing
    simp only [List.append_assoc, List.cons_append, List.nil_append] at closing ⊢
    rw [document, read, isFed, closing]

/--
The tree of a document does not depend on what the element holds but for the element's own nodes,
unless the references in a text between its tags are too many.
-/
theorem IsProper.readTree_document (proper : site.IsProper) :
    (∃ fault, ∀ {counts : Prop} {content : List Char} {nodes : List Node},
      Holds counts content nodes →
        IsUpTo counts (readTree (site.document content)) (.error fault)) ∨
    ∃ left around right attributes, Encloses around ∧
      (attributes = [] ↔ site.isBare) ∧
      ∀ {counts : Prop} {content : List Char} {nodes : List Node},
        Holds counts content nodes →
          IsUpTo counts (readTree (site.document content))
            (.ok (left ++ around (.element site.name attributes nodes) :: right)) := by
  obtain ⟨front, head, closing, sameName, bare, noBracket, isPieces⟩ := proper.exists_pieces
  -- What is read in front of the element, and whether its tag can be taken, is fixed.
  have isRead {counts : Prop} {content : List Char} {nodes : List Node}
      (holds : Holds counts content nodes) : ∃ fed, Holds counts fed nodes ∧
        readTree (site.document content) = (Builder.start.takeAll front >>= fun builder =>
          builder.take (.opening head) >>= (·.takeAll (pieces
            (fed ++ '<' :: '/' :: (closing ++ '>' :: Text.withLineFeeds site.after))))).map
              Builder.nodes := by
    obtain ⟨fed, holdsFed, same⟩ := isPieces holds
    exact ⟨fed, holdsFed, by rw [readTree, same, Builder.takeAll_append]; rfl⟩
  cases isFront : Builder.start.takeAll front with
  | error fault =>
      refine .inl ⟨fault, fun holds => .inl ?_⟩
      obtain ⟨_, _, same⟩ := isRead holds
      rw [same, isFront]
      rfl
  | ok builder =>
  cases isTaken : builder.take (.opening head) with
  | error fault =>
      refine .inl ⟨fault, fun holds => .inl ?_⟩
      obtain ⟨_, _, same⟩ := isRead holds
      rw [same, isFront]
      change (builder.take (.opening head) >>= _).map _ = _
      rw [isTaken]
      rfl
  | ok entered =>
  obtain ⟨isOpen, settled, attributes, outer, isLength, isOpened⟩ :=
    Builder.exists_of_take_opening isTaken
  obtain ⟨document, opened, closed, pending, references⟩ := entered
  dsimp only at isOpen settled isOpened
  subst isOpen settled isOpened
  have behind {counts : Prop} {content : List Char} {nodes : List Node}
      (holds : Holds counts content nodes) : ∃ further, (0 < further → counts) ∧
        IsUpTo counts (readTree (site.document content))
          (((Builder.counting (Builder.add ⟨document, outer, false, [], references⟩
            (.element head.name attributes nodes)) further).takeAll
              (pieces (Text.withLineFeeds site.after))).map Builder.nodes) := by
    obtain ⟨fed, holdsFed, same⟩ := isRead holds
    obtain ⟨further, counted, closes⟩ := holdsFed.takeAll_closing noBracket
    refine ⟨further, counted, ?_⟩
    rw [same, isFront]
    change IsUpTo counts ((builder.take (.opening head) >>= _).map _) _
    rw [isTaken]
    exact (closes _).bind fun after => .ok after.nodes
  rcases Builder.takeAll_add ⟨document, outer, false, [], references⟩
    (pieces (Text.withLineFeeds site.after)) with
    ⟨fault, fails⟩ | ⟨left, around, right, encloses, reads⟩
  · refine .inl ⟨fault, fun holds => ?_⟩
    obtain ⟨further, counted, upTo⟩ := behind holds
    exact upTo.trans ((fails _ further).mono counted)
  · refine .inr ⟨left, around, right, attributes, encloses, ?_, fun holds => ?_⟩
    · rw [← bare, ← List.length_eq_zero_iff, ← List.length_eq_zero_iff, isLength]
    · obtain ⟨further, counted, upTo⟩ := behind holds
      rw [← sameName]
      exact upTo.trans ((reads _ further).mono counted)

end Site

end Xml
end LadderDiagram
