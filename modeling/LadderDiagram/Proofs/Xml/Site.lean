import LadderDiagram.Proofs.Xml.Check
import LadderDiagram.Proofs.Xml.Nested

/-!
# A site in a document

What is read around a site does not depend on the node that stands there: the document is refused
for the same fault, or its tree has the node at one place and is otherwise the same.  Only the
number of references that have been counted before may make a difference, and only in that the
limit is reached.
-/

namespace LadderDiagram
namespace Xml

/-- Elements around a site, with the node that stands there left open. -/
inductive Encloses : (Node → Node) → Prop
  | site : Encloses id
  | within {around : Node → Node} (inner : Encloses around) (name : String)
      (attributes : List (String × String)) (left right : List Node) :
      Encloses fun node => .element name attributes (left ++ around node :: right)

/-- Whether a document is refused for its references. -/
def IsExcess {α : Type} (result : Except TreeFault α) : Prop :=
  ∃ count, result = .error (.tooManyReferences count)

/-- A result is the expected one unless, where more is counted, the limit has been reached. -/
def IsUpTo {α : Type} (counts : Prop) (result expected : Except TreeFault α) : Prop :=
  result = expected ∨ counts ∧ IsExcess result

section UpTo

variable {α β : Type} {counts : Prop} {result expected : Except TreeFault α}

theorem IsUpTo.bind (upTo : IsUpTo counts result expected) (next : α → Except TreeFault β) :
    IsUpTo counts (result >>= next) (expected >>= next) := by
  rcases upTo with same | ⟨isCounted, count, isError⟩
  · exact .inl (by rw [same])
  · exact .inr ⟨isCounted, count, by rw [isError]; rfl⟩

theorem IsUpTo.trans {last : Except TreeFault α} (first : IsUpTo counts result expected)
    (second : IsUpTo counts expected last) : IsUpTo counts result last := by
  rcases first with rfl | excess
  · exact second
  · exact .inr excess

theorem IsUpTo.mono {more : Prop} (upTo : IsUpTo counts result expected) (weaker : counts → more) :
    IsUpTo more result expected :=
  upTo.imp_right fun excess => ⟨weaker excess.1, excess.2⟩

end UpTo

namespace Builder

/-- A builder that has counted further references. -/
def counting (builder : Builder) (further : Nat) : Builder :=
  { builder with references := builder.references + further }

/-- A builder that has read the node at a site. -/
inductive HasSite : (Node → Builder) → Prop
  | document {around : Node → Node} (encloses : Encloses around) (builder : Builder)
      (later earlier : List Node) :
      HasSite fun node => { builder with document := later ++ around node :: earlier }
  | opened {around : Node → Node} (encloses : Encloses around) (builder : Builder)
      (inner : List OpenElement) (element : OpenElement) (outer : List OpenElement)
      (later earlier : List Node) :
      HasSite fun node =>
        { builder with
          opened :=
            inner ++ { element with children := later ++ around node :: earlier } :: outer }

section Sites

variable {family : Node → Builder}

/-- The node at the site plays no part in what a builder looks at. -/
theorem HasSite.exists_standing (site : HasSite family) :
    ∃ standing, ∀ node, (family node).standing = standing := by
  cases site with
  | document encloses builder later earlier => exact ⟨builder.standing, fun _ => rfl⟩
  | opened encloses builder inner element outer later earlier =>
      refine ⟨⟨(inner ++ element :: outer).map (·.name), builder.closed, builder.pending,
        builder.references⟩, fun node => ?_⟩
      simp [standing]

/-- What is collected and counted has no part in a site. -/
theorem HasSite.settle (site : HasSite family) (collect : List Char → List Char)
    (count : Nat → Nat) :
    HasSite fun node =>
      { family node with
        pending := collect (family node).pending
        references := count (family node).references } := by
  cases site with
  | document encloses builder later earlier =>
      exact .document encloses
        { builder with
          pending := collect builder.pending
          references := count builder.references } later earlier
  | opened encloses builder inner element outer later earlier =>
      exact .opened encloses
        { builder with
          pending := collect builder.pending
          references := count builder.references } inner element outer later earlier

/-- The node that is added next stands at a site. -/
theorem hasSite_add (builder : Builder) {around : Node → Node} (encloses : Encloses around) :
    HasSite fun node => builder.add (around node) := by
  obtain ⟨document, opened, closed, pending, references⟩ := builder
  cases opened with
  | nil => exact .document encloses ⟨document, [], closed, pending, references⟩ [] document
  | cons innermost outer =>
      exact .opened encloses ⟨document, [], closed, pending, references⟩ [] innermost outer []
        innermost.children

theorem HasSite.add (site : HasSite family) (other : Node) :
    HasSite fun node => (family node).add other := by
  cases site with
  | document encloses builder later earlier =>
      obtain ⟨document, opened, closed, pending, references⟩ := builder
      cases opened with
      | nil =>
          exact .document encloses ⟨document, [], closed, pending, references⟩ (other :: later)
            earlier
      | cons innermost outer =>
          exact .document encloses
            ⟨document, { innermost with children := other :: innermost.children } :: outer,
              closed, pending, references⟩ later earlier
  | opened encloses builder inner element outer later earlier =>
      cases inner with
      | nil => exact .opened encloses builder [] element outer (other :: later) earlier
      | cons innermost more =>
          exact .opened encloses builder
            ({ innermost with children := other :: innermost.children } :: more) element outer
            later earlier

theorem HasSite.enter (site : HasSite family) (entered : OpenElement) :
    HasSite fun node =>
      { family node with opened := entered :: (family node).opened } := by
  cases site with
  | document encloses builder later earlier =>
      exact .document encloses { builder with opened := entered :: builder.opened } later earlier
  | opened encloses builder inner element outer later earlier =>
      exact .opened encloses builder (entered :: inner) element outer later earlier

theorem HasSite.close (site : HasSite family) : HasSite fun node => (family node).close := by
  cases site with
  | document encloses builder later earlier =>
      obtain ⟨document, opened, closed, pending, references⟩ := builder
      cases opened with
      | nil => exact .document encloses ⟨document, [], true, pending, references⟩ later earlier
      | cons innermost outer =>
          exact (HasSite.document encloses ⟨document, outer, closed, pending, references⟩ later
            earlier).add innermost.node
  | opened encloses builder inner element outer later earlier =>
      cases inner with
      | nil =>
          have within := encloses.within element.name element.attributes earlier.reverse
            later.reverse
          have closes := hasSite_add { builder with opened := outer } within
          convert closes using 2 with node
          simp [Builder.close, OpenElement.node]
      | cons innermost more =>
          exact (HasSite.opened encloses builder more element outer later earlier).add
            innermost.node

/-! ### Steps -/

/--
A step that does not depend on the node at a site.  It fails for every node in the same way or
leaves a site, whatever further references have been counted before it.
-/
def IsBlind (step : Builder → Except TreeFault Builder) : Prop :=
  ∀ family, HasSite family →
    (∃ fault, ∀ node further,
      IsUpTo (0 < further) (step ((family node).counting further)) (.error fault)) ∨
    ∃ later, HasSite later ∧ ∀ node further,
      IsUpTo (0 < further) (step ((family node).counting further))
        (.ok ((later node).counting further))

theorem isBlind_error (fault : TreeFault) : IsBlind fun _ => .error fault :=
  fun _ _ => .inl ⟨fault, fun _ _ => .inl rfl⟩

theorem isBlind_ok {change : Builder → Builder}
    (keeps : ∀ family, HasSite family → HasSite fun node => change (family node))
    (counts : ∀ builder further,
      change (counting builder further) = (change builder).counting further) :
    IsBlind fun builder => .ok (change builder) :=
  fun family site =>
    .inr ⟨_, keeps family site, fun _ _ => .inl (congrArg Except.ok (counts _ _))⟩

theorem IsBlind.bind {first next : Builder → Except TreeFault Builder} (isFirst : IsBlind first)
    (isNext : IsBlind next) : IsBlind fun builder => first builder >>= next := by
  intro family site
  rcases isFirst family site with ⟨fault, fails⟩ | ⟨between, siteBetween, leads⟩
  · exact .inl ⟨fault, fun node further => (fails node further).bind next⟩
  · rcases isNext between siteBetween with ⟨fault, fails⟩ | ⟨later, siteLater, leadsOn⟩
    · exact .inl ⟨fault, fun node further =>
        ((leads node further).bind next).trans (fails node further)⟩
    · exact .inr ⟨later, siteLater, fun node further =>
        ((leads node further).bind next).trans (leadsOn node further)⟩

/-- A step may look at what the standing of a builder tells, but for the references. -/
theorem isBlind_of_view {step : List String → Bool → List Char → Builder → Except TreeFault Builder}
    (blind : ∀ names closed pending, IsBlind (step names closed pending)) :
    IsBlind fun builder =>
      step (builder.opened.map (·.name)) builder.closed builder.pending builder := by
  intro family site
  obtain ⟨standing, same⟩ := site.exists_standing
  have view (node : Node) (further : Nat) :
      step (((family node).counting further).opened.map (·.name))
          ((family node).counting further).closed ((family node).counting further).pending =
        step standing.names standing.closed standing.pending := by
    rw [← same node]
    rfl
  simpa only [view] using blind standing.names standing.closed standing.pending family site

theorem IsBlind.ite {yes no : Builder → Except TreeFault Builder} (isYes : IsBlind yes)
    (isNo : IsBlind no) (test : List String → Bool → List Char → Bool) :
    IsBlind fun builder =>
      if test (builder.opened.map (·.name)) builder.closed builder.pending then yes builder
      else no builder :=
  @isBlind_of_view (fun names closed pending builder =>
    if test names closed pending then yes builder else no builder)
    fun names closed pending => by
      split
      · exact isYes
      · exact isNo

/-- Further references count as such, unless the limit is reached. -/
theorem countReferences_add (before further : Nat) (chars : List Char) :
    countReferences (before + further) chars =
        (countReferences before chars).map (· + further) ∨
      0 < further ∧ ∃ count, countReferences (before + further) chars = .error count := by
  rcases Nat.eq_zero_or_pos further with rfl | positive
  · exact .inl (by cases isCount : countReferences before chars <;> simp [Except.map])
  unfold countReferences
  generalize countedChars = counted
  induction counted generalizing before with
  | nil => exact .inl rfl
  | cons char rest ih =>
      rw [List.foldlM_cons, List.foldlM_cons]
      dsimp only
      by_cases many : mostReferences < before + further + (referred chars).count char
      · exact .inr ⟨positive, _, by rw [if_pos many]; rfl⟩
      · have fewer : ¬ mostReferences < before + (referred chars).count char := by omega
        rw [if_neg many, if_neg fewer, Nat.add_right_comm]
        exact ih (before + (referred chars).count char)

theorem IsBlind.decoded {next : List Char → Builder → Except TreeFault Builder}
    (isNext : ∀ text, IsBlind (next text)) (chars : List Char) :
    IsBlind fun builder => builder.decoded chars >>= fun found => next found.1 found.2 := by
  intro family site
  obtain ⟨standing, same⟩ := site.exists_standing
  have counts (node : Node) : (family node).references = standing.references :=
    congrArg Standing.references (same node)
  cases isCount : countReferences standing.references chars with
  | error count =>
      refine .inl ⟨.tooManyReferences count, fun node further => ?_⟩
      have counted := countReferences_add (family node).references further chars
      rw [counts node, isCount] at counted
      rcases counted with isError | ⟨positive, more, isError⟩
      · left
        change (Builder.decoded _ _ >>= _) = _
        rw [Builder.decoded, counting, counts node, isError]
        rfl
      · refine .inr ⟨positive, more, ?_⟩
        change (Builder.decoded _ _ >>= _) = _
        rw [Builder.decoded, counting, counts node, isError]
        rfl
  | ok count =>
      have steps (node : Node) (further : Nat) :
          IsUpTo (0 < further) (((family node).counting further).decoded chars)
            (.ok (decode chars, counting { family node with references := count } further)) := by
        have counted := countReferences_add (family node).references further chars
        rw [counts node, isCount] at counted
        rcases counted with isOk | ⟨positive, more, isError⟩
        · left
          rw [Builder.decoded, counting, counts node, isOk]
          rfl
        · refine .inr ⟨positive, more, ?_⟩
          rw [Builder.decoded, counting, counts node, isError]
      rcases isNext (decode chars) _ (site.settle id fun _ => count) with
        ⟨fault, fails⟩ | ⟨later, siteLater, leads⟩
      · exact .inl ⟨fault, fun node further =>
          ((steps node further).bind _).trans (fails node further)⟩
      · exact .inr ⟨later, siteLater, fun node further =>
          ((steps node further).bind _).trans (leads node further)⟩

theorem IsBlind.decodedAttributes
    {next : List (String × String) → Builder → Except TreeFault Builder}
    (isNext : ∀ attributes, IsBlind (next attributes)) (written : List (String × List Char)) :
    IsBlind fun builder =>
      builder.decodedAttributes written >>= fun found => next found.1 found.2 := by
  induction written generalizing next with
  | nil => exact isNext []
  | cons field rest ih =>
      have later (value : List Char) := @ih (fun attributes =>
        next ((field.1, String.ofList value) :: attributes)) fun attributes => isNext _
      have whole := IsBlind.decoded later field.2
      simpa only [Builder.decodedAttributes, bind_assoc, pure_bind] using whole

theorem isBlind_add (node : Node) : IsBlind fun builder => .ok (builder.add node) :=
  isBlind_ok (fun _ site => site.add node) fun builder further => by
    unfold add counting
    cases builder.opened <;> rfl

theorem isBlind_settled : IsBlind fun builder => .ok { builder with pending := [] } :=
  isBlind_ok (fun _ site => site.settle (fun _ => []) id) fun _ _ => rfl

theorem isBlind_close : IsBlind fun builder => .ok builder.close :=
  isBlind_ok (fun _ site => site.close) fun builder further => by
    obtain ⟨document, opened, closed, pending, references⟩ := builder
    match opened with
    | [] => rfl
    | [_] => rfl
    | _ :: _ :: _ => rfl

theorem isBlind_flush : IsBlind flush := by
  refine @isBlind_of_view (fun _ _ pending builder =>
    if (Text.trimChars pending).isEmpty then .ok { builder with pending := [] }
    else
      { builder with pending := [] }.decoded (Text.trimChars pending) >>= fun found =>
        .ok (found.2.add (.value (.ofText found.1)))) fun _ _ pending => ?_
  split
  · exact isBlind_settled
  · exact isBlind_settled.bind (IsBlind.decoded (fun text => isBlind_add (.value (.ofText text))) _)

theorem isBlind_flushWithin : IsBlind flushWithin := by
  have whole := isBlind_flush.ite isBlind_settled fun names _ _ =>
    names.head?.any (· != documentName)
  have sameNames (builder : Builder) :
      (builder.opened.map (·.name)).head?.any (· != documentName) =
        builder.opened.head?.any (·.name != documentName) := by
    cases builder.opened <;> rfl
  simp only [sameNames] at whole
  exact whole

/-- Nothing is added where the document is closed. -/
theorem isBlind_added {change : Builder → Builder}
    (blind : IsBlind fun builder => .ok (change builder)) :
    IsBlind fun builder =>
      if builder.closed then .error (.outside .addedChild) else pure (change builder) :=
  (isBlind_error _).ite blind fun _ closed _ => closed

theorem isBlind_addEmpty (head : TagHead) : IsBlind (·.addEmpty head) :=
  IsBlind.decodedAttributes
    (fun attributes => isBlind_added (isBlind_add (.element head.name attributes [])))
    head.attributes

theorem isBlind_openElement (head : TagHead) : IsBlind (·.openElement head) := by
  have opens (attributes : List (String × String)) : IsBlind fun builder =>
      .ok { builder with opened := ⟨head.name, attributes, []⟩ :: builder.opened } :=
    isBlind_ok (fun _ site => site.enter _) fun _ _ => rfl
  have whole := (isBlind_error .tooDeep).ite
    (IsBlind.decodedAttributes (fun attributes => isBlind_added (opens attributes))
      head.attributes) fun names _ _ => deepest < names.length
  simp only [List.length_map, decide_eq_true_eq] at whole
  exact whole

/-- Whatever is read next, the node at a site plays no part in it. -/
theorem isBlind_take (piece : Piece) : IsBlind (·.take piece) := by
  cases piece with
  | text chars => exact isBlind_ok (fun _ site => site.settle (· ++ chars) id) fun _ _ => rfl
  | unended part => exact isBlind_error _
  | reserved name => exact isBlind_error _
  | closing =>
      exact isBlind_settled.ite (isBlind_flush.bind isBlind_close) fun _ closed _ => closed
  | instruction head =>
      exact (isBlind_error _).ite (isBlind_flush.bind (isBlind_addEmpty head))
        fun _ closed pending => closed && !pending.isEmpty
  | characters text =>
      have refused := @isBlind_of_view (fun _ _ pending _ => .error (.outside
        (if pending.isEmpty then .elementName else .childList))) fun _ _ _ => isBlind_error _
      exact refused.ite (isBlind_flush.bind (isBlind_add _)) fun _ closed _ => closed
  | empty head => exact isBlind_flushWithin.bind (isBlind_addEmpty head)
  | opening head => exact isBlind_flushWithin.bind (isBlind_openElement head)

theorem isBlind_takeAll (pieces : List Piece) : IsBlind (·.takeAll pieces) := by
  induction pieces with
  | nil => exact isBlind_ok (fun _ site => site) fun _ _ => rfl
  | cons piece rest ih => exact (isBlind_take piece).bind ih

/-- Closing an element from within, around the one that is closed already. -/
def closeOver (inner? : Option Node) (element : OpenElement) : Option Node :=
  some { element with children := inner?.toList ++ element.children }.node

theorem nodes_eq (builder : Builder) :
    builder.nodes =
      ((builder.opened.foldl closeOver none).toList ++ builder.document).reverse := rfl

theorem exists_foldl_closeOver {around : Node → Node} (encloses : Encloses around)
    (outer : List OpenElement) :
    ∃ whole, Encloses whole ∧
      ∀ node, outer.foldl closeOver (some (around node)) = some (whole node) := by
  induction outer generalizing around with
  | nil => exact ⟨around, encloses, fun _ => rfl⟩
  | cons element rest ih =>
      have closes (node : Node) : closeOver (some (around node)) element =
          some (.element element.name element.attributes
            (element.children.reverse ++ around node :: [])) := by
        simp [closeOver, OpenElement.node]
      obtain ⟨whole, isWhole, closesRest⟩ :=
        ih (encloses.within element.name element.attributes element.children.reverse [])
      exact ⟨whole, isWhole, fun node => by rw [List.foldl_cons, closes, closesRest]⟩

/-- The nodes of a document with a site. -/
theorem HasSite.exists_nodes (site : HasSite family) :
    ∃ left around right, Encloses around ∧
      ∀ node, (family node).nodes = left ++ around node :: right := by
  cases site with
  | @document around encloses builder later earlier =>
      refine ⟨earlier.reverse, around,
        later.reverse ++ (builder.opened.foldl closeOver none).toList.reverse, encloses,
        fun node => ?_⟩
      rw [nodes_eq]
      simp
  | @opened around encloses builder inner element outer later earlier =>
      generalize isInner : inner.foldl closeOver none = within?
      obtain ⟨whole, isWhole, closes⟩ := exists_foldl_closeOver
        (encloses.within element.name element.attributes earlier.reverse
          (later.reverse ++ within?.toList.reverse)) outer
      refine ⟨builder.document.reverse, whole, [], isWhole, fun node => ?_⟩
      have own : closeOver within?
          { element with children := later ++ around node :: earlier } =
            some (.element element.name element.attributes
              (earlier.reverse ++ around node :: (later.reverse ++ within?.toList.reverse))) := by
        simp [closeOver, OpenElement.node]
      rw [nodes_eq, List.foldl_append, List.foldl_cons, isInner, own, closes]
      simp

/-- Behind a site a document is refused whatever stands there, or its tree has the node there. -/
theorem takeAll_add (builder : Builder) (pieces : List Piece) :
    (∃ fault, ∀ node further,
      IsUpTo (0 < further) ((((builder.add node).counting further).takeAll pieces).map nodes)
        (.error fault)) ∨
    ∃ left around right, Encloses around ∧ ∀ node further,
      IsUpTo (0 < further) ((((builder.add node).counting further).takeAll pieces).map nodes)
        (.ok (left ++ around node :: right)) := by
  rcases isBlind_takeAll pieces _ (hasSite_add builder .site) with
    ⟨fault, fails⟩ | ⟨later, site, leads⟩
  · exact .inl ⟨fault, fun node further => (fails node further).bind fun after => .ok after.nodes⟩
  · obtain ⟨left, around, right, encloses, isNodes⟩ := site.exists_nodes
    refine .inr ⟨left, around, right, encloses, fun node further => ?_⟩
    rw [← isNodes]
    exact (leads node further).bind fun after => .ok after.nodes

end Sites

end Builder

end Xml
end LadderDiagram
