import LadderDiagram.Proofs.Xml.Written
import LadderDiagram.Xml.Tree

/-!
# Building what was written

A builder that takes the pieces of a written node ends with one more node: the one that was
written, with its values trimmed.  The blanks between tags are dropped when the next tag comes.
The run over a node is one induction over the node, with one lemma for each kind of piece.
-/

namespace LadderDiagram
namespace Xml

namespace Builder

/-! ### One piece -/

/-- A builder between tags, where nothing but blanks has been read since the last one. -/
structure IsReady (builder : Builder) : Prop where
  isOpen : builder.closed = false
  blank : ∀ char ∈ builder.pending, Text.isBlank char

section Pieces

variable {builder : Builder} {name : String} {attributes : List (String × String)}

theorem trimChars_of_isBlank {chars : List Char} (blank : ∀ char ∈ chars, Text.isBlank char) :
    Text.trimChars chars = [] := by
  have start : Text.trimStart chars = [] := List.dropWhile_eq_nil_iff.mpr blank
  rw [Text.trimChars, start]
  rfl

theorem IsReady.flush_eq (ready : builder.IsReady) :
    builder.flush = .ok { builder with pending := [] } := by
  rw [flush, trimChars_of_isBlank ready.blank]
  rfl

theorem IsReady.flushWithin_eq (ready : builder.IsReady) :
    builder.flushWithin = .ok { builder with pending := [] } := by
  unfold flushWithin
  split
  · exact ready.flush_eq
  · rfl

/-- The builder behind the attributes of a tag. -/
def counted (builder : Builder) (attributes : List (String × String)) : Builder :=
  { builder with references := builder.references + referencesOfValues attributes }

theorem decodedAttributes_eq
    (few : builder.references + referencesOfValues attributes ≤ mostReferences) :
    builder.decodedAttributes (writtenHead name attributes).attributes =
      .ok (mapValues Text.trimChars attributes, builder.counted attributes) := by
  induction attributes generalizing builder with
  | nil => rfl
  | cons field rest ih =>
      have total : referencesOfValues (field :: rest) =
          referenceCount field.2.toList + referencesOfValues rest := rfl
      rw [total] at few
      have own := @countReferences_escape builder.references (Text.trimChars field.2.toList)
        (by rw [referenceCount_trimChars]; omega)
      rw [referenceCount_trimChars] at own
      have later := @ih
        { builder with references := builder.references + referenceCount field.2.toList }
        (by dsimp only; omega)
      have decoded : builder.decoded (escape (Text.trimChars field.2.toList)) =
          .ok (Text.trimChars field.2.toList,
            { builder with references := builder.references + referenceCount field.2.toList }) := by
        rw [Builder.decoded, own, decode_escape]
      change (builder.decoded _ >>= _) = _
      rw [decoded]
      change (Builder.decodedAttributes _ (writtenHead name rest).attributes >>= _) = _
      rw [later]
      simp only [counted, total, Nat.add_assoc]
      rfl

/-- A builder with one more open element. -/
def entered (builder : Builder) (name : String) (attributes : List (String × String)) : Builder :=
  { builder.counted attributes with
    pending := []
    opened := ⟨name, mapValues Text.trimChars attributes, []⟩ :: builder.opened }

theorem IsReady.take_opening (ready : builder.IsReady) (name : String)
    (shallow : builder.opened.length ≤ deepest)
    (few : builder.references + referencesOfValues attributes ≤ mostReferences) :
    builder.take (.opening (writtenHead name attributes)) =
      .ok (builder.entered name attributes) := by
  have decoded := @decodedAttributes_eq { builder with pending := [] } name attributes few
  change (builder.flushWithin >>= _) = _
  rw [ready.flushWithin_eq]
  change Builder.openElement _ _ = _
  rw [openElement, if_neg (by simpa using shallow), decoded]
  change (if builder.closed then _ else _) = _
  rw [if_neg (Bool.eq_false_iff.mp ready.isOpen)]
  rfl

theorem IsReady.take_empty (ready : builder.IsReady)
    (few : builder.references + referencesOfValues attributes ≤ mostReferences) :
    builder.take (.empty (writtenHead name attributes)) =
      .ok ({ builder.counted attributes with pending := [] }.add
        (.element name (mapValues Text.trimChars attributes) [])) := by
  have decoded := @decodedAttributes_eq { builder with pending := [] } name attributes few
  change (builder.flushWithin >>= _) = _
  rw [ready.flushWithin_eq]
  change Builder.addEmpty _ _ = _
  rw [addEmpty, decoded]
  change (if builder.closed then _ else _) = _
  rw [if_neg (Bool.eq_false_iff.mp ready.isOpen)]
  rfl

theorem IsReady.take_closing (ready : builder.IsReady) :
    builder.take .closing = .ok ({ builder with pending := [] }.close) := by
  change (if builder.closed then _ else _) = _
  rw [if_neg (Bool.eq_false_iff.mp ready.isOpen), ready.flush_eq]
  rfl

theorem IsReady.take_characters (ready : builder.IsReady) (text : String) :
    builder.take (.characters text) =
      .ok ({ builder with pending := [] }.add (.characters text)) := by
  change (if builder.closed then _ else _) = _
  rw [if_neg (Bool.eq_false_iff.mp ready.isOpen), ready.flush_eq]
  rfl

end Pieces

/-! ### Runs -/

/-- What a builder does when it takes a text, whatever is behind it. -/
def Leads (before : Builder) (chars : List Char) (after : Builder) : Prop :=
  ∀ rest, before.takeAll (pieces (chars ++ rest)) = after.takeAll (pieces rest)

section Runs

variable {before between after : Builder}

theorem Leads.trans {first second : List Char} (start : before.Leads first between)
    (later : between.Leads second after) : before.Leads (first ++ second) after := by
  intro rest
  rw [List.append_assoc, start, later]

theorem takeAll_text (builder : Builder) (chars : List Char) (rest : List Piece) :
    builder.takeAll (.text chars :: rest) =
      Builder.takeAll { builder with pending := builder.pending ++ chars } rest := rfl

/-- Text joins the text in front of it and the text behind it. -/
theorem leads_text (builder : Builder) (chars : List Char) (plain : '<' ∉ chars) :
    builder.Leads chars { builder with pending := builder.pending ++ chars } := by
  have notMark {char : Char} (other : char ≠ '<') : (char != '<') = true := by simpa using other
  intro rest
  cases chars with
  | nil => rw [List.append_nil, List.nil_append]
  | cons char more =>
      rw [List.mem_cons, not_or] at plain
      have others : ∀ own ∈ more, (own != '<') = true := by
        intro own member
        exact notMark fun same => plain.2 (same ▸ member)
      rw [List.cons_append, pieces_text (Ne.symm plain.1),
        List.takeWhile_append_of_pos others, List.dropWhile_append_of_pos others, takeAll_text]
      cases rest with
      | nil => simp
      | cons next behind =>
          by_cases isMark : next = '<'
          · rw [isMark, List.takeWhile_cons_of_neg (by decide),
              List.dropWhile_cons_of_neg (by decide), List.append_nil]
          · rw [pieces_text isMark, List.takeWhile_cons_of_pos (by exact notMark isMark),
              List.dropWhile_cons_of_pos (by exact notMark isMark), takeAll_text]
            simp

theorem leads_of_take {chars : List Char} {piece : Piece}
    (read : ∀ rest, pieces (chars ++ rest) = piece :: pieces rest)
    (taken : before.take piece = .ok after) : before.Leads chars after := by
  intro rest
  rw [read, takeAll, taken]
  rfl

end Runs

/-! ### Lines -/

/-- What is read within blanks on a line of its own. -/
theorem IsReady.leads_line {builder : Builder} (ready : builder.IsReady) (depth : Nat)
    (chars : List Char) (after : Builder) (ends : after.pending = ['\n'])
    (within : ∀ pending, ({ builder with pending := pending } : Builder).IsReady →
      Leads { builder with pending := pending } chars { after with pending := [] }) :
    builder.Leads (blanks depth ++ (chars ++ ['\n'])) after := by
  have plain : '<' ∉ blanks depth :=
    fun member => absurd (List.eq_of_mem_replicate member) (by decide)
  have readyFurther :
      ({ builder with pending := builder.pending ++ blanks depth } : Builder).IsReady := by
    refine ⟨ready.isOpen, fun char member => ?_⟩
    rcases List.mem_append.mp member with before | own
    · exact ready.blank char before
    · rw [List.eq_of_mem_replicate own]
      decide
  have feed : Leads { after with pending := [] } ['\n'] after := by
    cases after
    cases ends
    exact leads_text _ _ (by decide)
  exact (leads_text builder _ plain).trans
    ((within _ readyFurther).trans feed)

/-! ### Nodes -/

def addAll (builder : Builder) (nodes : List Node) : Builder := nodes.foldl add builder

/-- The builder behind a written node and the line feed that ends it. -/
def behindNode (builder : Builder) (node : Node) : Builder :=
  { builder.addAll (node.mapTexts Text.trimChars id).sectioned with
    pending := ['\n']
    references := builder.references + node.references }

def behindNodes (builder : Builder) (nodes : List Node) : Builder :=
  nodes.foldl behindNode builder

/-- The builder within an element, behind the line feed that ends its opening tag. -/
def inside (builder : Builder) (name : String) (attributes : List (String × String)) : Builder :=
  { builder.entered name attributes with pending := ['\n'] }

theorem isBlank_of_mem_feed : ∀ char ∈ ['\n'], Text.isBlank char :=
  List.forall_mem_singleton.mpr (by decide)

section Nodes

variable {builder : Builder} {name : String} {attributes : List (String × String)}

theorem add_update (builder : Builder) (node : Node) (pending : List Char) (references : Nat) :
    ({ builder with pending := pending, references := references } : Builder).add node =
      { builder.add node with pending := pending, references := references } := by
  unfold add
  cases builder.opened <;> rfl

theorem addAll_update (builder : Builder) (nodes : List Node) (pending : List Char)
    (references : Nat) :
    ({ builder with pending := pending, references := references } : Builder).addAll nodes =
      { builder.addAll nodes with pending := pending, references := references } := by
  induction nodes generalizing builder with
  | nil => rfl
  | cons node rest ih =>
      rw [addAll, List.foldl_cons, add_update]
      exact ih (builder.add node)

theorem pending_add (builder : Builder) (node : Node) :
    (builder.add node).pending = builder.pending := by
  unfold add
  split <;> rfl

theorem closed_add (builder : Builder) (node : Node) :
    (builder.add node).closed = builder.closed := by
  unfold add
  split <;> rfl

theorem closed_addAll (builder : Builder) (nodes : List Node) :
    (builder.addAll nodes).closed = builder.closed := by
  induction nodes generalizing builder with
  | nil => rfl
  | cons node rest ih => exact (ih (builder.add node)).trans (closed_add builder node)

/-- The innermost element takes the nodes, and nothing else changes. -/
theorem addAll_of_opened (nodes : List Node) {innermost : OpenElement} {outer : List OpenElement}
    (isOpened : builder.opened = innermost :: outer) :
    builder.addAll nodes =
      { builder with
        opened := { innermost with children := nodes.reverse ++ innermost.children } :: outer } := by
  induction nodes generalizing builder innermost with
  | nil =>
      rw [List.reverse_nil, List.nil_append, ← isOpened]
      rfl
  | cons node rest ih =>
      have added : builder.add node =
          { builder with
            opened := { innermost with children := node :: innermost.children } :: outer } := by
        rw [add, isOpened]
      rw [addAll, List.foldl_cons, added]
      refine (ih rfl).trans ?_
      rw [List.reverse_cons, List.append_assoc]
      rfl

theorem length_opened_addAll (builder : Builder) (nodes : List Node) :
    (builder.addAll nodes).opened.length = builder.opened.length := by
  induction nodes generalizing builder with
  | nil => rfl
  | cons node rest ih =>
      refine (ih (builder.add node)).trans ?_
      unfold add
      split <;> simp_all

theorem IsReady.behindNode (ready : builder.IsReady) (node : Node) :
    (builder.behindNode node).IsReady where
  isOpen := (closed_addAll builder _).trans ready.isOpen
  blank := isBlank_of_mem_feed

theorem IsReady.inside (ready : builder.IsReady) (name : String)
    (attributes : List (String × String)) : (builder.inside name attributes).IsReady where
  isOpen := ready.isOpen
  blank := isBlank_of_mem_feed

/-- The innermost element takes the nodes, and nothing else changes but what is pending. -/
theorem exists_behindNodes (nodes : List Node) {innermost : OpenElement}
    {outer : List OpenElement} (ready : builder.IsReady) (isOpened : builder.opened = innermost :: outer) :
    ∃ pending, (∀ char ∈ pending, Text.isBlank char) ∧
      builder.behindNodes nodes =
        { builder with
          opened := { innermost with
            children := (sectionedNodes (mapTextsOfNodes Text.trimChars id nodes)).reverse ++
              innermost.children } :: outer
          pending := pending
          references := builder.references + referencesOfNodes nodes } := by
  induction nodes generalizing builder innermost with
  | nil =>
      refine ⟨builder.pending, ready.blank, ?_⟩
      rw [mapTextsOfNodes, sectionedNodes, List.reverse_nil, List.nil_append, ← isOpened]
      rfl
  | cons node rest ih =>
      have behindFirst : builder.behindNode node =
          { builder with
            opened := { innermost with
              children := (node.mapTexts Text.trimChars id).sectioned.reverse ++
                innermost.children } :: outer
            pending := ['\n']
            references := builder.references + node.references } := by
        rw [Builder.behindNode, addAll_of_opened _ isOpened]
      obtain ⟨pending, blank, behind⟩ := ih (ready.behindNode node)
        (congrArg Builder.opened behindFirst)
      refine ⟨pending, blank, behind.trans ?_⟩
      rw [behindFirst, mapTextsOfNodes, sectionedNodes, List.reverse_append, List.append_assoc,
        referencesOfNodes, ← Nat.add_assoc]

theorem IsReady.leads_empty (ready : builder.IsReady) (isWord : isWord name.toList)
    (written : AreWritten attributes) (depth : Nat)
    (few : builder.references + referencesOfValues attributes ≤ mostReferences) :
    builder.Leads (Node.render depth (.element name attributes [])).toList
      (builder.behindNode (.element name attributes [])) := by
  have line := ready.leads_line depth
    ('<' :: (name.toList ++ attributesChars attributes ++ ['/', '>']))
    (builder.behindNode (.element name attributes [])) rfl
    (fun pending readyFurther => by
      apply leads_of_take (fun rest => by simpa using pieces_empty isWord written.words rest)
      rw [readyFurther.take_empty few]
      exact congrArg Except.ok (add_update builder _ [] _))
  rw [toList_render_empty]
  simpa using line

theorem IsReady.leads_section (ready : builder.IsReady) {part : List Char}
    (whole : ¬ sectionEnd <:+: part) :
    builder.Leads (sectionChars part)
      (Builder.add { builder with pending := [] } (.characters (String.ofList part))) :=
  leads_of_take (pieces_section whole) (ready.take_characters _)

/-- A text is read section by section; nothing is pending between them. -/
theorem IsReady.leads_sections {parts : List (List Char)} (written : parts ≠ [])
    (whole : ∀ part ∈ parts, ¬ sectionEnd <:+: part) (ready : builder.IsReady) :
    builder.Leads (parts.flatMap sectionChars)
      (Builder.addAll { builder with pending := [] }
        (parts.map fun part => .characters (String.ofList part))) := by
  induction parts generalizing builder with
  | nil => exact absurd rfl written
  | cons part rest ih =>
      obtain ⟨first, others⟩ := List.forall_mem_cons.mp whole
      have own := ready.leads_section first
      generalize between : Builder.add _ _ = after at own
      have settled : after.pending = [] := between ▸ pending_add _ _
      have readyAfter : after.IsReady :=
        ⟨between ▸ (closed_add _ _).trans ready.isOpen, by simp [settled]⟩
      rw [List.flatMap_cons, List.map_cons, addAll, List.foldl_cons, between]
      cases rest with
      | nil =>
          rw [List.flatMap_nil, List.append_nil]
          exact own
      | cons next more =>
          have later := ih (List.cons_ne_nil next more) others readyAfter
          have same : { after with pending := [] } = after := by rw [← settled]
          rw [same] at later
          exact own.trans later

theorem IsReady.leads_characters (ready : builder.IsReady) (text : String) (depth : Nat) :
    builder.Leads (Node.render depth (.characters text)).toList
      (builder.behindNode (.characters text)) := by
  obtain ⟨first, more, parts, _, _⟩ := exists_sections text.toList
  rw [toList_render_characters]
  refine ready.leads_line depth _ _ rfl fun pending readyFurther => ?_
  have read := readyFurther.leads_sections (parts ▸ List.cons_ne_nil first more)
    fun _ => not_infix_of_mem_sections
  have after : Builder.addAll { builder with pending := [] }
      ((sections text.toList).map fun part => .characters (String.ofList part)) =
        { builder.behindNode (.characters text) with pending := [] } := by
    refine (addAll_update builder _ [] builder.references).trans ?_
    rw [Builder.behindNode, Node.mapTexts, id_eq, String.ofList_toList]
    rfl
  rw [after] at read
  exact read

/-- A closing tag makes the element that has taken its children the next node. -/
theorem IsReady.leads_element (ready : builder.IsReady) (isWord : isWord name.toList)
    (written : AreWritten attributes) (depth : Nat) (shallow : builder.opened.length ≤ deepest)
    (few : builder.references + referencesOfValues attributes ≤ mostReferences)
    {first : Node} {more : List Node}
    (children : (builder.inside name attributes).Leads
      (renderNodes (depth + 1) (first :: more)).toList
      ((builder.inside name attributes).behindNodes (first :: more))) :
    builder.Leads (Node.render depth (.element name attributes (first :: more))).toList
      (builder.behindNode (.element name attributes (first :: more))) := by
  have opening := ready.leads_line depth
    ('<' :: (name.toList ++ attributesChars attributes ++ ['>']))
    (builder.inside name attributes) rfl
    (fun pending readyFurther =>
      leads_of_take (fun rest => by simpa using pieces_opening isWord written.words rest)
        (readyFurther.take_opening name shallow few))
  obtain ⟨behind, blank, after⟩ :=
    exists_behindNodes (first :: more) (ready.inside name attributes) rfl
  have readyBehind : ((builder.inside name attributes).behindNodes (first :: more)).IsReady := by
    rw [after]
    exact ⟨ready.isOpen, blank⟩
  have closing := readyBehind.leads_line depth
    ('<' :: '/' :: (name.toList ++ ['>']))
    (builder.behindNode (.element name attributes (first :: more))) rfl
    (fun pending readyFurther => by
      apply leads_of_take
        (fun rest => by simpa using pieces_closing (not_mem_of_isWord isWord rfl) rest)
      rw [after] at readyFurther ⊢
      rw [readyFurther.take_closing]
      apply congrArg Except.ok
      change Builder.add _ (OpenElement.node _) = _
      rw [OpenElement.node]
      dsimp only
      rw [List.append_nil, List.reverse_reverse]
      refine (add_update builder _ [] _).trans ?_
      rw [Builder.behindNode, Node.references, ← Nat.add_assoc]
      rfl)
  rw [toList_render_element]
  simpa using opening.trans (children.trans closing)

end Nodes

mutual

/-- Reading a written node gives the node with its values trimmed. -/
theorem IsReady.leads_node (node : Node) {levels : Nat} (isPlain : node.IsPlain levels)
    {builder : Builder} (ready : builder.IsReady)
    (shallow : builder.opened.length + levels ≤ deepest + 1)
    (few : builder.references + node.references ≤ mostReferences) (depth : Nat) :
    builder.Leads (node.render depth).toList (builder.behindNode node) := by
  cases isPlain with
  | empty isWord written => exact ready.leads_empty isWord written depth few
  | @element levels name attributes first more isWord written children =>
      rw [Node.references, ← Nat.add_assoc] at few
      apply ready.leads_element isWord written depth (by omega) (by omega)
      refine IsReady.leads_nodes (first :: more) children (ready.inside name attributes) ?_ few (depth + 1)
      change builder.opened.length + 1 + levels ≤ deepest + 1
      omega
  | @characters _ text => exact ready.leads_characters text depth

theorem IsReady.leads_nodes (nodes : List Node) {levels : Nat} (arePlain : ArePlain levels nodes)
    {builder : Builder} (ready : builder.IsReady)
    (shallow : builder.opened.length + levels ≤ deepest + 1)
    (few : builder.references + referencesOfNodes nodes ≤ mostReferences) (depth : Nat) :
    builder.Leads (renderNodes depth nodes).toList (builder.behindNodes nodes) := by
  cases arePlain with
  | nil => exact fun _ => rfl
  | @cons _ node rest isPlain others =>
      rw [referencesOfNodes, ← Nat.add_assoc] at few
      have first := IsReady.leads_node node isPlain ready shallow (by omega) depth
      have later := IsReady.leads_nodes rest others (ready.behindNode node)
        ((length_opened_addAll builder _).symm ▸ shallow) few depth
      rw [toList_renderNodes_cons]
      exact first.trans later

end

end Builder

/-! ### Documents -/

/-- The node of the declaration. -/
def declarationNode : Node := .element "?xml" declared []

theorem Builder.leads_declaration :
    Builder.start.Leads declaration.toList
      { Builder.start with document := [declarationNode], pending := ['\n'] } := by
  intro rest
  have decoded := @Builder.decodedAttributes_eq Builder.start "?xml" declared (by decide)
  have taken : Builder.start.take (.instruction (writtenHead "?xml" declared)) =
      .ok { Builder.start with document := [declarationNode] } := by
    change Builder.addEmpty Builder.start _ = _
    rw [Builder.addEmpty, decoded]
    rfl
  rw [pieces_declaration, Builder.takeAll, taken]
  exact Builder.leads_text _ ['\n'] (by decide) rest

/-- A written document is read as its declaration and its root. -/
theorem readTree_renderDocument {name : String} {attributes : List (String × String)}
    {children : List Node} {levels : Nat}
    (isPlain : (Node.element name attributes children).IsPlain levels)
    (shallow : levels ≤ deepest + 1)
    (few : (Node.element name attributes children).references ≤ mostReferences) :
    readTree (renderDocument (.element name attributes children)).toList =
      .ok (declarationNode :: ((Node.element name attributes children).mapTexts
        (Text.trimChars ∘ Text.withLineFeeds) Text.withLineFeeds).sectioned) := by
  have ready : ({ Builder.start with
      document := [declarationNode], pending := ['\n'] } : Builder).IsReady :=
    ⟨rfl, Builder.isBlank_of_mem_feed⟩
  have fed := isPlain.mapTexts Text.withLineFeeds Text.withLineFeeds
  have fewFed : 0 + ((Node.element name attributes children).mapTexts Text.withLineFeeds
      Text.withLineFeeds).references ≤ mostReferences := by
    rwa [Node.references_withLineFeeds, Nat.zero_add]
  have shallowFed : 0 + levels ≤ deepest + 1 := by rwa [Nat.zero_add]
  have leads := Builder.leads_declaration.trans
    (Builder.IsReady.leads_node _ fed ready shallowFed fewFed 0)
  have whole := leads []
  rw [List.append_nil, pieces_nil, Builder.takeAll] at whole
  rw [readTree, withLineFeeds_renderDocument isPlain, renderDocument, String.toList_append, whole,
    Builder.behindNode, Node.mapTexts_mapTexts]
  rfl

end Xml
end LadderDiagram
