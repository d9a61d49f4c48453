import LadderDiagram.L5x.Export
import LadderDiagram.L5x.Routine
import LadderDiagram.Proofs.Xml.Building
import LadderDiagram.Proofs.Xml.Record

/-!
# Values of a routine's document

The values that a written routine is read as, whatever reading makes of attributes and texts.
One routine is found among them.  It has the rungs that were written, in their order, as long as
none of their texts is cut into sections; if one is, the routine as a whole is passed over.
-/

namespace LadderDiagram
namespace L5x

open Xml

/-! ### Fields -/

/-- An attribute or a text as it is read. -/
def receivedText (receive : List Char → List Char) (text : String) : String :=
  String.ofList (receive text.toList)

theorem gather_nil : gather isList [] = [] := gather_of_nodup (by decide) List.nodup_nil

theorem gather_single {name : String} (areWords : AreWords [name]) (value : Value) :
    gather isList [(name, value)] = [(name, if isList name then .list [value] else value)] :=
  gather_of_nodup areWords (List.nodup_singleton _)

theorem gather_pair {first second : String} (areWords : AreWords [first, second])
    (apart : first ≠ second) (value other : Value) :
    gather isList [(first, value), (second, other)] =
      [(first, if isList first then .list [value] else value),
        (second, if isList second then .list [other] else other)] :=
  gather_of_nodup areWords (by simp [apart])

theorem nodeEntries_append (first second : List Node) :
    nodeEntries isList (first ++ second) = nodeEntries isList first ++ nodeEntries isList second := by
  induction first with
  | nil => rfl
  | cons node rest ih => rw [List.cons_append, nodeEntries, nodeEntries, ih, List.append_assoc]

section Reading

variable (onValue onSection : List Char → List Char)

/-- The nodes that a written node is read as. -/
def readNodes (node : Node) : List Node := (node.mapTexts onValue onSection).sectioned

/-- The named values that a written node is read as. -/
def readEntries (node : Node) : List (String × Value) :=
  nodeEntries isList (readNodes onValue onSection node)

theorem nodeEntries_readNodes (nodes : List Node) :
    nodeEntries isList (sectionedNodes (mapTextsOfNodes onValue onSection nodes)) =
      nodes.flatMap (readEntries onValue onSection) := by
  induction nodes with
  | nil => rfl
  | cons node rest ih =>
      rw [mapTextsOfNodes, sectionedNodes, nodeEntries_append, ih]
      rfl

/-- What is no stretch of text is not read as one. -/
theorem texts_readNodes {nodes : List Node} (silent : ∀ node ∈ nodes, node.text? = none) :
    (sectionedNodes (mapTextsOfNodes onValue onSection nodes)).filterMap Node.text? = [] := by
  induction nodes with
  | nil => rfl
  | cons node rest ih =>
      obtain ⟨first, others⟩ := List.forall_mem_cons.mp silent
      have own : (node.mapTexts onValue onSection).sectioned.filterMap Node.text? = [] := by
        cases node with
        | element name attributes children =>
            rw [Node.mapTexts, Node.sectioned, List.filterMap_cons]
            rw [Node.text?] at first ⊢
            rw [first]
            rfl
        | characters text =>
            rw [Node.mapTexts, Node.sectioned, List.filterMap_map]
            exact List.filterMap_eq_nil_iff.mpr fun _ _ => rfl
        | value scalar => cases first
      rw [mapTextsOfNodes, sectionedNodes, List.filterMap_append, own, ih others]
      rfl

/-- The values of an element's children are gathered in its own. -/
theorem readEntries_element {name : String} (named : name ≠ textKey ∧ name ≠ attributeMark)
    (attributes : List (String × String)) {children : List Node}
    (silent : ∀ child ∈ children, child.text? = none) :
    readEntries onValue onSection (.element name attributes children) =
      [(name, .ofParts (gather isList (children.flatMap (readEntries onValue onSection))) none
        (mapValues onValue attributes))] := by
  rw [readEntries, readNodes, Node.mapTexts, Node.sectioned, nodeEntries, Node.entry,
    if_neg (by simp [named]), nodeEntries_readNodes, texts_readNodes onValue onSection silent]
  rfl

theorem readEntries_parent {name childName : String}
    (named : name ≠ textKey ∧ name ≠ attributeMark) (areWords : AreWords [childName])
    (attributes : List (String × String)) {child : Node} {value : Value}
    (isRead : readEntries onValue onSection child = [(childName, value)])
    (silent : child.text? = none) :
    readEntries onValue onSection (.element name attributes [child]) =
      [(name, .ofParts [(childName, if isList childName then .list [value] else value)] none
        (mapValues onValue attributes))] := by
  rw [readEntries_element onValue onSection named attributes
    (List.forall_mem_singleton.mpr silent), List.flatMap_singleton, isRead,
    gather_single areWords]

/-! ### Sections -/

/-- The value of an element with a text. -/
def sectionValue (text : String) : Value :=
  .record [(sectionKey,
    held isList sectionKey ((sections text.toList).map fun part => .scalar (.text (.ofList part))))]

theorem readEntries_characters (text : String) :
    readEntries onValue onSection (.characters text) =
      ((sections (receivedText onSection text).toList).map fun part =>
        Value.scalar (.text (.ofList part))).map (sectionKey, ·) := by
  have entries (parts : List (List Char)) :
      nodeEntries isList (parts.map fun part => .characters (.ofList part)) =
        (parts.map fun part => Value.scalar (.text (.ofList part))).map (sectionKey, ·) := by
    induction parts with
    | nil => rfl
    | cons part rest ih =>
        rw [List.map_cons, nodeEntries, ih]
        rfl
  exact entries _

theorem readEntries_sectionElement {name : String}
    (named : name ≠ textKey ∧ name ≠ attributeMark) (text : String) :
    readEntries onValue onSection (sectionElement name text) =
      [(name, sectionValue (receivedText onSection text))] := by
  obtain ⟨first, more, parts, _, _⟩ := exists_sections (receivedText onSection text).toList
  rw [sectionElement, readEntries_element onValue onSection named []
    (List.forall_mem_singleton.mpr rfl), List.flatMap_singleton, readEntries_characters,
    gather_of_forall_eq (by decide) (by simp [parts])]
  rfl

/-- A text without the mark of the end of a section. -/
def IsWhole (text : String) : Prop := ¬ sectionEnd <:+: text.toList

instance (text : String) : Decidable (IsWhole text) :=
  inferInstanceAs (Decidable (¬ sectionEnd <:+: text.toList))

theorem elementText?_sectionValue {text : String} (whole : IsWhole text) :
    elementText? (sectionValue text) = some text := by
  rw [sectionValue, sections_eq_singleton whole, List.map_singleton, String.ofList_toList]
  rfl

/-- Where a text is cut, the element has none. -/
theorem elementText?_of_not_isWhole {text : String} (cut : ¬ IsWhole text) :
    elementText? (sectionValue text) = none := by
  obtain ⟨first, second, more, parts⟩ := exists_sections_of_infix (not_not.mp cut)
  rw [sectionValue, parts]
  rfl

/-! ### Rungs -/

/-- A rung whose text and comment do not hold the mark of the end of a section. -/
structure WrittenRung.IsWhole (rung : WrittenRung) : Prop where
  text : L5x.IsWhole rung.text
  comment : ∀ comment ∈ rung.comment, L5x.IsWhole comment

/-- The value of a rung. -/
def rungValue (rung : WrittenRung) : Value :=
  .record ((rung.comment.map fun comment =>
      ("Comment", sectionValue (receivedText onSection comment))).toList ++
    [("Text", sectionValue (receivedText onSection rung.text)),
      (attributeKey "Number", .scalar (.text (receivedText onValue rung.number.text))),
      (attributeKey "Type", .scalar (.text (receivedText onValue "N")))])

theorem readEntries_rung (rung : WrittenRung) :
    readEntries onValue onSection rung.node = [("Rung", rungValue onValue onSection rung)] := by
  have text (own : String) := readEntries_sectionElement onValue onSection
    (show "Text" ≠ textKey ∧ "Text" ≠ attributeMark by decide) own
  have comment (own : String) := readEntries_sectionElement onValue onSection
    (show "Comment" ≠ textKey ∧ "Comment" ≠ attributeMark by decide) own
  rw [WrittenRung.node, rungValue]
  cases rung.comment with
  | none =>
      refine (readEntries_parent onValue onSection (by decide) (by decide) _ (text rung.text)
        rfl).trans rfl
  | some own =>
      have silent : ∀ child ∈ [sectionElement "Comment" own, sectionElement "Text" rung.text],
          child.text? = none := by
        simp only [List.forall_mem_cons]
        exact ⟨rfl, rfl, fun _ member => absurd member List.not_mem_nil⟩
      refine (readEntries_element onValue onSection (by decide) _ silent).trans ?_
      rw [List.flatMap_cons, List.flatMap_singleton, comment, text, List.singleton_append,
        gather_pair (by decide) (by decide)]
      rfl

/-! ### The routine -/

/-- The content of a routine, which is the empty text where there are no rungs. -/
def contentValue (rungs : List WrittenRung) : Value :=
  if rungs.isEmpty then .scalar (.text "")
  else .record [("Rung", .list (rungs.map (rungValue onValue onSection)))]

theorem readEntries_content (rungs : List WrittenRung) :
    readEntries onValue onSection (.element "RLLContent" [] (rungs.map WrittenRung.node)) =
      [("RLLContent", contentValue onValue onSection rungs)] := by
  have silent : ∀ child ∈ rungs.map WrittenRung.node, child.text? = none :=
    List.forall_mem_map.mpr fun _ _ => rfl
  have entries : (rungs.map WrittenRung.node).flatMap (readEntries onValue onSection) =
      (rungs.map (rungValue onValue onSection)).map ("Rung", ·) := by
    induction rungs with
    | nil => rfl
    | cons rung rest ih =>
        rw [List.map_cons, List.flatMap_cons, readEntries_rung, ih (List.forall_mem_cons.mp silent).2]
        rfl
  rw [readEntries_element onValue onSection (by decide) [] silent, entries, contentValue]
  cases rungs with
  | nil =>
      rw [List.map_nil, List.map_nil, gather_nil]
      rfl
  | cons rung rest =>
      have listed (values : List Value) : held isList "Rung" values = .list values := by
        cases values with
        | nil => rfl
        | cons value more => cases more <;> rfl
      rw [gather_of_forall_eq (by decide) (by simp), listed]
      rfl

/-- The value of a routine. -/
def routineValue (name : String) (rungs : List WrittenRung) : Value :=
  .record [("RLLContent", contentValue onValue onSection rungs),
    (attributeKey "Use", .scalar (.text (receivedText onValue "Target"))),
    (attributeKey "Name", .scalar (.text (receivedText onValue name))),
    (attributeKey "Type", .scalar (.text (receivedText onValue "RLL")))]

theorem routineValues_routineDocument (name program : String) (rungs : List WrittenRung) :
    routineValues (.ofDocument isList (declarationNode ::
      readNodes onValue onSection (routineDocument name program rungs))) =
        [routineValue onValue onSection name rungs] := by
  have parent {elementName childName : String}
      (named : elementName ≠ textKey ∧ elementName ≠ attributeMark)
      (areWords : AreWords [childName]) (attributes : List (String × String)) {child : Node}
      {value : Value} (isRead : readEntries onValue onSection child = [(childName, value)])
      (silent : child.text? = none) :=
    readEntries_parent onValue onSection named areWords attributes isRead silent
  have routine := @parent "Routine" _ (by decide) (by decide)
    [("Use", "Target"), ("Name", name), ("Type", "RLL")] _ _
    (readEntries_content onValue onSection rungs) rfl
  have routines := @parent "Routines" _ (by decide) (by decide) [("Use", "Context")] _ _ routine rfl
  have ofProgram := @parent "Program" _ (by decide) (by decide)
    [("Use", "Context"), ("Name", program)] _ _ routines rfl
  have programs := @parent "Programs" _ (by decide) (by decide) [("Use", "Context")] _ _
    ofProgram rfl
  have controller := @parent "Controller" _ (by decide) (by decide) [("Use", "Context")] _ _
    programs rfl
  have content := @parent "RSLogix5000Content" _ (by decide) (by decide)
    [("SchemaRevision", "1.0"), ("TargetType", "Routine"), ("TargetName", name),
      ("ContainsContext", "true")] _ _ controller rfl
  have declaration : declarationNode.entry isList = some ("?xml", .ofParts [] none declared) := by
    rw [declarationNode, Node.entry, if_neg (by decide), nodeEntries, gather_nil]
    rfl
  have entries : nodeEntries isList (declarationNode ::
      readNodes onValue onSection (routineDocument name program rungs)) =
        ("?xml", .ofParts [] none declared) :: readEntries onValue onSection
          (routineDocument name program rungs) := by
    rw [nodeEntries, declaration]
    rfl
  rw [Value.ofDocument, entries]
  refine (congrArg (fun read => routineValues
    (.record (gather isList (("?xml", .ofParts [] none declared) :: read)))) content).trans ?_
  rw [gather_pair (by decide) (by decide)]
  rfl

/-! ### Reading the routine -/

theorem rung?_record (own : List (String × Value)) :
    rung? (.record own) = (attribute? (.record own) "Number").bind fun _ =>
      (attribute? (.record own) "Type").bind fun _ =>
        (fieldText? (.record own) "Comment").bind fun comment =>
          (fieldText? (.record own) "Text").map fun text =>
            ⟨some (Text.trim (text.getD "")), (comment.map Text.trim).filter (!·.isEmpty)⟩ := by
  unfold rung?
  cases attribute? (.record own) "Number" with
  | none => rfl
  | some _ =>
  cases attribute? (.record own) "Type" with
  | none => rfl
  | some _ =>
  cases fieldText? (.record own) "Comment" with
  | none => rfl
  | some _ => cases fieldText? (.record own) "Text" <;> rfl

theorem entry?_record (own : List (String × Value)) :
    entry? (.record own) = (attribute? (.record own) "Name").bind fun routine =>
      (attribute? (.record own) "Type").bind fun kind =>
        if kind.getD ladderKind == ladderKind then
          (rungs? (.record own)).map fun rungs => ⟨routine, rungs⟩
        else none := by
  unfold entry?
  cases attribute? (.record own) "Name" with
  | none => rfl
  | some routine =>
  cases attribute? (.record own) "Type" with
  | none => rfl
  | some kind =>
  rw [Option.bind_some, Option.bind_some]
  by_cases isLadder : kind.getD ladderKind == ladderKind
  · rw [if_pos isLadder]
    cases rungs? (.record own) with
    | none => rfl
    | some rungs => exact if_pos isLadder
  · rw [if_neg isLadder]
    cases rungs? (.record own) with
    | none => rfl
    | some rungs => exact if_neg isLadder

/-- A rung as it is read. -/
def receivedRung (rung : WrittenRung) : RungSource :=
  ⟨some (Text.trim (receivedText onSection rung.text)),
    (rung.comment.map fun comment => Text.trim (receivedText onSection comment)).filter
      (!·.isEmpty)⟩

theorem fieldText?_text (rung : WrittenRung) :
    fieldText? (rungValue onValue onSection rung) "Text" =
      (elementText? (sectionValue (receivedText onSection rung.text))).map some := by
  rw [rungValue]
  cases rung.comment <;> rfl

theorem fieldText?_comment (rung : WrittenRung) :
    fieldText? (rungValue onValue onSection rung) "Comment" =
      match rung.comment with
      | none => some none
      | some comment =>
          (elementText? (sectionValue (receivedText onSection comment))).map some := by
  rw [rungValue]
  cases rung.comment <;> rfl

/-- A rung is read from the texts of its elements. -/
theorem rung?_rungValue_eq (rung : WrittenRung) :
    rung? (rungValue onValue onSection rung) =
      (fieldText? (rungValue onValue onSection rung) "Comment").bind fun comment =>
        (fieldText? (rungValue onValue onSection rung) "Text").map fun text =>
          ⟨some (Text.trim (text.getD "")), (comment.map Text.trim).filter (!·.isEmpty)⟩ := by
  have number : attribute? (rungValue onValue onSection rung) "Number" =
      some (some (receivedText onValue rung.number.text)) := by
    rw [rungValue]
    cases rung.comment <;> rfl
  have kind : attribute? (rungValue onValue onSection rung) "Type" =
      some (some (receivedText onValue "N")) := by
    rw [rungValue]
    cases rung.comment <;> rfl
  have isRecord : ∃ fields, rungValue onValue onSection rung = .record fields := ⟨_, rfl⟩
  obtain ⟨fields, same⟩ := isRecord
  rw [same] at number kind ⊢
  rw [rung?_record, number, kind]
  rfl

section Cut

variable (same : ∀ text, IsWhole (receivedText onSection text) ↔ IsWhole text)

include same

theorem rung?_rungValue {rung : WrittenRung} (whole : rung.IsWhole) :
    rung? (rungValue onValue onSection rung) = some (receivedRung onSection rung) := by
  have text := elementText?_sectionValue ((same rung.text).mpr whole.text)
  rw [rung?_rungValue_eq, fieldText?_comment, fieldText?_text, text, receivedRung]
  cases commented : rung.comment with
  | none => rfl
  | some comment =>
      dsimp only
      rw [elementText?_sectionValue ((same comment).mpr (whole.comment comment commented))]
      rfl

theorem rung?_of_not_isWhole {rung : WrittenRung} (cut : ¬ rung.IsWhole) :
    rung? (rungValue onValue onSection rung) = none := by
  rw [rung?_rungValue_eq, fieldText?_comment, fieldText?_text]
  by_cases wholeText : IsWhole rung.text
  · cases commented : rung.comment with
    | none => exact absurd ⟨wholeText, by simp [commented]⟩ cut
    | some comment =>
        have cutComment : ¬ IsWhole comment :=
          fun whole => cut ⟨wholeText, by simpa [commented] using whole⟩
        dsimp only
        rw [elementText?_of_not_isWhole fun whole => cutComment ((same comment).mp whole)]
        rfl
  · rw [elementText?_of_not_isWhole fun whole => wholeText ((same rung.text).mp whole)]
    exact Option.bind_eq_none_iff.mpr fun _ _ => rfl

theorem mapM_rung? {rungs : List WrittenRung} (whole : ∀ rung ∈ rungs, rung.IsWhole) :
    (rungs.map (rungValue onValue onSection)).mapM rung? =
      some (rungs.map (receivedRung onSection)) := by
  induction rungs with
  | nil => rfl
  | cons rung rest ih =>
      obtain ⟨first, others⟩ := List.forall_mem_cons.mp whole
      rw [List.map_cons, List.mapM_cons, rung?_rungValue onValue onSection same first, ih others]
      rfl

theorem mapM_rung?_of_not_isWhole {rungs : List WrittenRung}
    (cut : ∃ rung ∈ rungs, ¬ rung.IsWhole) :
    (rungs.map (rungValue onValue onSection)).mapM rung? = none := by
  induction rungs with
  | nil => exact absurd cut (by simp)
  | cons rung rest ih =>
      rw [List.map_cons, List.mapM_cons]
      by_cases whole : rung.IsWhole
      · obtain ⟨other, member, cutOther⟩ := cut
        have later := (List.mem_cons.mp member).resolve_left fun isFirst =>
          cutOther (isFirst ▸ whole)
        rw [ih ⟨other, later, cutOther⟩]
        exact Option.bind_eq_none_iff.mpr fun _ _ => rfl
      · rw [rung?_of_not_isWhole onValue onSection same whole]
        rfl

end Cut

theorem rungs?_routineValue (name : String) (rungs : List WrittenRung) :
    rungs? (routineValue onValue onSection name rungs) =
      (rungs.map (rungValue onValue onSection)).mapM rung? := by
  have content : (routineValue onValue onSection name rungs).field? "RLLContent" =
      some (contentValue onValue onSection rungs) := rfl
  rw [rungs?, content, contentValue]
  cases rungs <;> rfl

/-- The routine is read with the rungs that are found in its content. -/
theorem entry?_routineValue (name : String) (rungs : List WrittenRung)
    (kept : receivedText onValue ladderKind = ladderKind) :
    entry? (routineValue onValue onSection name rungs) =
      (rungs? (routineValue onValue onSection name rungs)).map fun sources =>
        ⟨some (receivedText onValue name), sources⟩ := by
  have isName : attribute? (routineValue onValue onSection name rungs) "Name" =
      some (some (receivedText onValue name)) := rfl
  have isKind : attribute? (routineValue onValue onSection name rungs) "Type" =
      some (some (receivedText onValue ladderKind)) := rfl
  have isRecord : ∃ fields, routineValue onValue onSection name rungs = .record fields := ⟨_, rfl⟩
  obtain ⟨fields, same⟩ := isRecord
  rw [same] at isName isKind ⊢
  rw [entry?_record, isName, isKind, kept]
  rfl

end Reading
end L5x
end LadderDiagram
