import LadderDiagram.Proofs.Xml.Reading

/-!
# Documents as they are written

A plain node has words for the names of its elements and attributes, and no values of other
kinds among its texts.  Its text is put together from tags, sections and blanks.  To make the
line ends of that text line feeds is to write the node with line feeds in its values and texts.
-/

namespace LadderDiagram
namespace Xml

open Text (withLineFeeds BecomesFed becomesFed_of_not_mem becomesFed_concat)

/-! ### Plain nodes -/

mutual

/-- A node that is read as it is written, with at most so many elements within each other. -/
inductive Node.IsPlain : Nat → Node → Prop
  | empty {levels : Nat} {name : String} {attributes : List (String × String)} :
      isWord name.toList → AreWritten attributes → Node.IsPlain levels (.element name attributes [])
  | element {levels : Nat} {name : String} {attributes : List (String × String)} {first : Node}
      {more : List Node} :
      isWord name.toList → AreWritten attributes → ArePlain levels (first :: more) →
        Node.IsPlain (levels + 1) (.element name attributes (first :: more))
  | characters {levels : Nat} {text : String} : Node.IsPlain levels (.characters text)

inductive ArePlain : Nat → List Node → Prop
  | nil {levels : Nat} : ArePlain levels []
  | cons {levels : Nat} {node : Node} {rest : List Node} :
      node.IsPlain levels → ArePlain levels rest → ArePlain levels (node :: rest)

end

/-- Attributes with their values changed. -/
def mapValues (value : List Char → List Char) (attributes : List (String × String)) :
    List (String × String) :=
  attributes.map fun field => (field.1, String.ofList (value field.2.toList))

mutual

/-- A node with the values of its attributes and the texts of its sections changed. -/
def Node.mapTexts (value text : List Char → List Char) : Node → Node
  | .element name attributes children =>
      .element name (mapValues value attributes) (mapTextsOfNodes value text children)
  | .characters own => .characters (String.ofList (text own.toList))
  | .value scalar => .value scalar

def mapTextsOfNodes (value text : List Char → List Char) : List Node → List Node
  | [] => []
  | node :: rest => node.mapTexts value text :: mapTextsOfNodes value text rest

end

mutual

/-- The nodes that a written node is read as, with a text cut into its sections. -/
def Node.sectioned : Node → List Node
  | .element name attributes children => [.element name attributes (sectionedNodes children)]
  | .characters text => (sections text.toList).map fun part => .characters (String.ofList part)
  | .value scalar => [.value scalar]

def sectionedNodes : List Node → List Node
  | [] => []
  | node :: rest => node.sectioned ++ sectionedNodes rest

end

def referencesOfValues (attributes : List (String × String)) : Nat :=
  (attributes.map fun field => referenceCount field.2.toList).sum

mutual

/-- The number of references in the values of a node that are counted. -/
def Node.references : Node → Nat
  | .element _ attributes children => referencesOfValues attributes + referencesOfNodes children
  | .characters _ => 0
  | .value _ => 0

def referencesOfNodes : List Node → Nat
  | [] => 0
  | node :: rest => node.references + referencesOfNodes rest

end

mutual

theorem Node.mapTexts_mapTexts (value text laterValue laterText : List Char → List Char)
    (node : Node) :
    (node.mapTexts value text).mapTexts laterValue laterText =
      node.mapTexts (laterValue ∘ value) (laterText ∘ text) := by
  cases node with
  | element name attributes children =>
      rw [Node.mapTexts, Node.mapTexts, Node.mapTexts, mapTextsOfNodes_mapTextsOfNodes]
      simp [mapValues, Function.comp_def]
  | characters own => simp [Node.mapTexts]
  | value scalar => rfl

theorem mapTextsOfNodes_mapTextsOfNodes (value text laterValue laterText : List Char → List Char)
    (nodes : List Node) :
    mapTextsOfNodes laterValue laterText (mapTextsOfNodes value text nodes) =
      mapTextsOfNodes (laterValue ∘ value) (laterText ∘ text) nodes := by
  cases nodes with
  | nil => rfl
  | cons node rest =>
      rw [mapTextsOfNodes, mapTextsOfNodes, mapTextsOfNodes, node.mapTexts_mapTexts,
        mapTextsOfNodes_mapTextsOfNodes]

end

mutual

theorem Node.references_withLineFeeds (node : Node) :
    (node.mapTexts withLineFeeds withLineFeeds).references = node.references := by
  cases node with
  | element name attributes children =>
      have values : referencesOfValues (mapValues withLineFeeds attributes) =
          referencesOfValues attributes := by
        simp [referencesOfValues, mapValues, Function.comp_def, referenceCount_withLineFeeds]
      rw [Node.mapTexts, Node.references, Node.references, values,
        referencesOfNodes_withLineFeeds]
  | characters own => rfl
  | value scalar => rfl

theorem referencesOfNodes_withLineFeeds (nodes : List Node) :
    referencesOfNodes (mapTextsOfNodes withLineFeeds withLineFeeds nodes) =
      referencesOfNodes nodes := by
  cases nodes with
  | nil => rfl
  | cons node rest =>
      rw [mapTextsOfNodes, referencesOfNodes, referencesOfNodes, node.references_withLineFeeds,
        referencesOfNodes_withLineFeeds]

end

/-! ### Characters -/

def blanks (depth : Nat) : List Char := List.replicate (2 * depth) ' '

theorem toList_indentation (depth : Nat) : (indentation depth).toList = blanks depth :=
  String.toList_ofList

section Render

variable {depth : Nat} {name : String} {attributes : List (String × String)}

theorem toList_render_empty :
    (Node.render depth (.element name attributes [])).toList =
      blanks depth ++ '<' :: (name.toList ++ attributesChars attributes ++ ['/', '>', '\n']) := by
  simp [Node.render, toList_indentation, toList_headText]

theorem toList_render_element {first : Node} {more : List Node} :
    (Node.render depth (.element name attributes (first :: more))).toList =
      blanks depth ++ '<' :: (name.toList ++ attributesChars attributes ++ '>' :: '\n' ::
        ((renderNodes (depth + 1) (first :: more)).toList ++
          (blanks depth ++ '<' :: '/' :: (name.toList ++ ['>', '\n'])))) := by
  simp only [Node.render, String.toList_append, toList_indentation, toList_headText]
  simp

theorem toList_render_characters {text : String} :
    (Node.render depth (.characters text)).toList =
      blanks depth ++ ((sections text.toList).flatMap sectionChars ++ ['\n']) := by
  simp [Node.render, toList_indentation, toList_sectionMarkup]

theorem toList_renderNodes_cons (node : Node) (rest : List Node) :
    (renderNodes depth (node :: rest)).toList =
      (node.render depth).toList ++ (renderNodes depth rest).toList := by
  rw [renderNodes, String.toList_append]

end Render

/-! ### Line feeds -/

theorem becomesFed_of_isWord {word : List Char} (isWord : isWord word) : BecomesFed word word :=
  becomesFed_of_not_mem (not_mem_of_isWord isWord rfl)

theorem becomesFed_blanks (depth : Nat) : BecomesFed (blanks depth) (blanks depth) := by
  apply becomesFed_of_not_mem
  intro member
  exact absurd (List.eq_of_mem_replicate member) (by decide)

theorem becomesFed_attributesChars {attributes : List (String × String)}
    (words : ∀ field ∈ attributes, isWord field.1.toList) :
    BecomesFed (attributesChars attributes)
      (attributesChars (mapValues withLineFeeds attributes)) := by
  induction attributes with
  | nil => exact becomesFed_of_not_mem List.not_mem_nil
  | cons field rest ih =>
      obtain ⟨isWord, others⟩ := List.forall_mem_cons.mp words
      have value := becomesFed_concat (escape field.2.toList) '"' (by decide) (by decide)
      rw [withLineFeeds_escape] at value
      have equated : BecomesFed ['=', '"'] ['=', '"'] := becomesFed_of_not_mem (by decide)
      have space : BecomesFed [' '] [' '] := becomesFed_of_not_mem (by decide)
      have own := space.append (((becomesFed_of_isWord isWord).append
        (equated.append value)).append (ih others))
      simpa [attributesChars, attributeChars, mapValues] using own

/-- A text is cut into its sections with its line ends as they are. -/
theorem becomesFed_sections (chars : List Char) :
    BecomesFed ((sections chars).flatMap sectionChars)
      ((sections (withLineFeeds chars)).flatMap sectionChars) := by
  have beginning : BecomesFed "<![CDATA[".toList "<![CDATA[".toList :=
    becomesFed_of_not_mem (by decide)
  have ending : BecomesFed [']', '>'] [']', '>'] := becomesFed_of_not_mem (by decide)
  have text := becomesFed_concat (cutSection chars) ']' (by decide) (by decide)
  rw [withLineFeeds_cutSection] at text
  have own := beginning.append (text.append ending)
  rw [flatMap_sections, flatMap_sections]
  simpa [sectionEnd] using own

theorem AreWritten.mapValues {attributes : List (String × String)} (written : AreWritten attributes)
    (value : List Char → List Char) : AreWritten (mapValues value attributes) where
  words := by
    intro field member
    obtain ⟨own, isOwn, rfl⟩ := List.mem_map.mp member
    exact written.words own isOwn
  distinct := by
    have names : (Xml.mapValues value attributes).map (fun field => field.1.toList) =
        attributes.map fun field => field.1.toList := by
      simp [Xml.mapValues, Function.comp_def]
    rw [names]
    exact written.distinct

mutual

theorem Node.IsPlain.mapTexts (value text : List Char → List Char) (node : Node) {levels : Nat}
    (isPlain : node.IsPlain levels) :
    (node.mapTexts value text).IsPlain levels := by
  cases isPlain with
  | empty isWord written => exact .empty isWord (written.mapValues value)
  | element isWord written children =>
      exact .element isWord (written.mapValues value) (children.mapTexts value text _)
  | characters => exact .characters

theorem ArePlain.mapTexts (value text : List Char → List Char) (nodes : List Node)
    {levels : Nat} (arePlain : ArePlain levels nodes) :
    ArePlain levels (mapTextsOfNodes value text nodes) := by
  cases arePlain with
  | nil => exact .nil
  | @cons _ node rest isPlain others =>
      exact .cons (isPlain.mapTexts value text node) (others.mapTexts value text rest)

end

mutual

theorem Node.becomesFed_render (node : Node) {levels : Nat} (isPlain : node.IsPlain levels)
    (depth : Nat) :
    BecomesFed (node.render depth).toList
      ((node.mapTexts withLineFeeds withLineFeeds).render depth).toList := by
  cases isPlain with
  | @empty _ name attributes isWord written =>
      have ending : BecomesFed ['/', '>', '\n'] ['/', '>', '\n'] :=
        becomesFed_of_not_mem (by decide)
      have bracket : BecomesFed ['<'] ['<'] := becomesFed_of_not_mem (by decide)
      have own := (becomesFed_blanks depth).append (bracket.append
        (((becomesFed_of_isWord isWord).append
          (becomesFed_attributesChars written.words)).append ending))
      rw [Node.mapTexts, mapTextsOfNodes, toList_render_empty, toList_render_empty]
      exact own
  | @element _ name attributes first more isWord written children =>
      have inner := becomesFed_renderNodes (first :: more) children (depth + 1)
      have ending : BecomesFed ['>', '\n'] ['>', '\n'] := becomesFed_of_not_mem (by decide)
      have bracket : BecomesFed ['<'] ['<'] := becomesFed_of_not_mem (by decide)
      have closing : BecomesFed ['<', '/'] ['<', '/'] := becomesFed_of_not_mem (by decide)
      have behind := (becomesFed_blanks depth).append (closing.append
        ((becomesFed_of_isWord isWord).append ending))
      have own := (becomesFed_blanks depth).append (bracket.append
        (((becomesFed_of_isWord isWord).append
          (becomesFed_attributesChars written.words)).append
            (ending.append (inner.append behind))))
      rw [Node.mapTexts, mapTextsOfNodes, toList_render_element, toList_render_element]
      exact own
  | @characters _ text =>
      have feed : BecomesFed ['\n'] ['\n'] := becomesFed_of_not_mem (by decide)
      have own := (becomesFed_blanks depth).append ((becomesFed_sections text.toList).append feed)
      rw [Node.mapTexts, toList_render_characters, toList_render_characters, String.toList_ofList]
      exact own

theorem becomesFed_renderNodes (nodes : List Node) {levels : Nat}
    (arePlain : ArePlain levels nodes) (depth : Nat) :
    BecomesFed (renderNodes depth nodes).toList
      (renderNodes depth (mapTextsOfNodes withLineFeeds withLineFeeds nodes)).toList := by
  cases arePlain with
  | nil => exact becomesFed_of_not_mem List.not_mem_nil
  | @cons _ node rest isPlain others =>
      have first := node.becomesFed_render isPlain depth
      have later := becomesFed_renderNodes rest others depth
      rw [mapTextsOfNodes, toList_renderNodes_cons, toList_renderNodes_cons]
      exact first.append later

end

/-- A document with line feeds is the document of the node with line feeds. -/
theorem withLineFeeds_renderDocument {node : Node} {levels : Nat} (isPlain : node.IsPlain levels) :
    withLineFeeds (renderDocument node).toList =
      (renderDocument (node.mapTexts withLineFeeds withLineFeeds)).toList := by
  have front : BecomesFed declaration.toList declaration.toList :=
    becomesFed_of_not_mem (by decide)
  have whole := front.append (node.becomesFed_render isPlain 0) []
  rw [List.append_nil, withLineFeeds, List.append_nil] at whole
  rw [renderDocument, renderDocument, String.toList_append, String.toList_append, whole]

end Xml
end LadderDiagram
