import LadderDiagram.Sequence.Annotation

/-!
# Questions about sequences

Gaps lie before, between and after the elements; the gap `g` is the place that
a new element at position `g` would take.  A gap lies on one rail, a branch
ends at one marker, and a rail ends at the next marker of its branch.
-/

namespace LadderDiagram

/-- The rail on which a gap lies; none is the main rail. -/
def railAtGap (elements : List Element) : Nat → Option BranchId
  | 0 => none
  | gap + 1 =>
      match elements[gap]? with
      | some previous =>
          match previous.draft with
          | .branchStart id => some id
          | _ => previous.railId
      | none => none

/-- Whether some marker opens the rail with a handle. -/
def hasRail (elements : List Element) (rail : BranchId) : Bool :=
  elements.any fun element => element.openedRail? == some rail

/-- The number of drafts before the marker that ends the current rail. -/
def railLength? (depth : Nat) : List Draft → Option Nat
  | [] => none
  | draft :: rest =>
      match draft.kind, depth with
      | .branchStart, depth => (railLength? (depth + 1) rest).map (· + 1)
      | .branchEnd, 0 => some 0
      | .branchEnd, depth + 1 => (railLength? depth rest).map (· + 1)
      | .branchNext, 0 => some 0
      | .branchNext, depth + 1 => (railLength? (depth + 1) rest).map (· + 1)
      | .instruction, depth => (railLength? depth rest).map (· + 1)

/--
The position of the end marker that carries the handle of the element at
`start`, searched behind it.
-/
def findBranchEnd (elements : List Element) (start : Nat) : Except LadderError Nat :=
  let id := elements[start]?.bind Element.branchId
  let behind := elements.drop (start + 1)
  match behind.findIdx? fun element => element.kind == .branchEnd && element.branchId == id with
  | some index => .ok (start + 1 + index)
  | none => .error (.unbalanced (.unclosedStart (.ofNat start)))

/-- The end of the rail that the element named `marker` opens, searched from a place on. -/
def railEndFrom (elements : List Element) (marker : Address) (place : Nat) :
    Except LadderError Nat :=
  match railLength? 0 (drafts (elements.drop place)) with
  | some length => .ok (place + length)
  | none => .error (.unbalanced (.unclosedRail marker))

/--
The position just past the rail that the marker at `marker` opens: that of the
next marker or the end marker of its branch.
-/
def findRailEnd (elements : List Element) (marker : Nat) : Except LadderError Nat :=
  railEndFrom elements (.ofNat marker) (marker + 1)

/--
The number of branches that are open after a run of drafts, where `depth` are
open before it; none if the run leaves the rail on which it begins.
-/
def openAfter? (depth : Nat) : List Draft → Option Nat
  | [] => some depth
  | draft :: rest =>
      match draft.kind, depth with
      | .branchStart, depth => openAfter? (depth + 1) rest
      | .branchEnd, 0 => none
      | .branchEnd, depth + 1 => openAfter? depth rest
      | .branchNext, 0 => none
      | .branchNext, depth + 1 => openAfter? (depth + 1) rest
      | .instruction, depth => openAfter? depth rest

/--
Whether the elements from gap `start` to gap `finish` hold whole branches only
and stay on one rail.
-/
def isSelfContainedRun (elements : List Element) (start finish : Nat) : Bool :=
  openAfter? 0 (drafts ((elements.take finish).drop start)) == some 0

/-! ### Places that callers choose

A caller may ask about any number.  A search begins right behind it, and a
question that needs an element where the sequence has none has no answer.
-/

/-- The place right behind a number, if a search from there meets places only. -/
def placeBehind? (elements : List Element) : Address → Option Nat
  | .whole value => if value < -1 then none else some (value + 1).toNat
  | .other value =>
      if value + 1 < Float.ofNat elements.length then none else some elements.length

/-- The rail on which the gap with a number lies; gaps below zero are on the main rail. -/
def railAtGapOf? (elements : List Element) (gap : Address) : Option (Option BranchId) :=
  if gap.isUpTo (.ofNat 0) then some none
  else (gap.upTo? elements.length).map (railAtGap elements)

def findBranchEndOf? (elements : List Element) (start : Address) :
    Option (Except LadderError Nat) :=
  match start.toNat? with
  | some place => some (findBranchEnd elements place)
  | none => do
      let place ← placeBehind? elements start
      if (elements.drop place).any (·.kind == .branchEnd) then none
      else some (.error (.unbalanced (.unclosedStart start)))

def findRailEndOf? (elements : List Element) (marker : Address) :
    Option (Except LadderError Nat) :=
  (placeBehind? elements marker).map (railEndFrom elements marker)

/-- Whether the elements from one number up to another are a run of whole branches. -/
def isSelfContainedRunOf? (elements : List Element) (start finish : Address) : Option Bool :=
  if !finish.isAfter start then some true
  else do
    let first ← start.below? elements.length
    let run := (elements.take (finish.placesBefore elements.length)).drop first
    match openAfter? 0 (drafts run) with
    | none => some false
    | some depth => if finish.isAfter (.ofNat elements.length) then none else some (depth == 0)

/-- The greatest number of branches open at one place of a sequence. -/
def branchDepth (elements : List Element) : Address :=
  elements.foldl
    (fun depth element =>
      if element.kind = .branchStart then depth.later element.branchLevel.next else depth)
    (.ofNat 0)

end LadderDiagram
