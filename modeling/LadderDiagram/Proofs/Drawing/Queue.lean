import LadderDiagram.Drawing.Basic
import LadderDiagram.Proofs.List
import Mathlib.Data.List.Dedup
import Mathlib.Data.List.Sort

/-!
# The queue of a pass

A pass over a drawing may be seen as a queue.  It begins with the marked rungs, in ascending
order and each of them once.  The first one is taken out and laid out; if its band is another
one than before, the next rung is put into the queue, unless it waits there already.  Such a
queue has two properties that every turn keeps: it ascends, and whatever does not wait in it
has a layout.  So it runs empty after each rung has come up once at most, and all that has not
come up is as it was.
-/

namespace LadderDiagram

/-! ### The queue -/

/-- An ascending list with a number in front of the first greater one, unless it is there. -/
def enqueue (number : Nat) (pending : List Nat) : List Nat :=
  if pending.contains number then pending
  else pending.insertIdx ((pending.findIdx? (number < ·)).getD pending.length) number

/-- The queue with which a pass begins: the marked rungs that there are, in ascending order. -/
def pendingOf (count : Nat) (marked : List Nat) : List Nat :=
  (marked.dedup.filter (· < count)).mergeSort

/-- What waits once a rung has been laid out: the next one too if the rung has moved. -/
def pendingAfter (count index : Nat) (moved : Bool) (rest : List Nat) : List Nat :=
  if moved && decide (index + 1 < count) then enqueue (index + 1) rest else rest

namespace Drawing

variable {α : Type} [Scalar α]

/-- The queue of a pass runs empty; the rungs that have come up are listed in their order. -/
inductive Drains : List Nat → Drawing α → List Nat → Drawing α → Prop
  | done (drawing : Drawing α) : Drains [] drawing [] drawing
  | turn {index : Nat} {rest numbers : List Nat} {drawing between after : Drawing α}
      {rung : Rung} {moved : Bool} (stands : drawing.routine.rungs[index]? = some rung)
      (relays : (relayRung index rung).on drawing = (.ok moved, between))
      (others : Drains (pendingAfter drawing.routine.size index moved rest) between numbers
        after) :
      Drains (index :: rest) drawing (index :: numbers) after

/-- A queue runs empty in one way only. -/
theorem Drains.unique {pending numbers more : List Nat} {drawing after final : Drawing α}
    (drains : Drains pending drawing numbers after)
    (drainsToo : Drains pending drawing more final) : more = numbers ∧ final = after := by
  induction drains generalizing more final with
  | done drawing =>
      cases drainsToo
      exact ⟨rfl, rfl⟩
  | turn stands relays _ ih =>
      cases drainsToo with
      | turn standsToo relaysToo others =>
          cases stands.symm.trans standsToo
          cases relays.symm.trans relaysToo
          obtain ⟨rfl, rfl⟩ := ih others
          exact ⟨rfl, rfl⟩

end Drawing

section Lists

variable {number count index : Nat} {moved : Bool} {pending rest : List Nat}

theorem enqueue_of_mem (waits : number ∈ pending) : enqueue number pending = pending :=
  if_pos (List.contains_iff_mem.mpr waits)

/-- A number below all that wait goes to their front. -/
theorem enqueue_of_lt (below : ∀ other ∈ pending, number < other) :
    enqueue number pending = number :: pending := by
  have absent : ¬ pending.contains number = true := fun waits =>
    Nat.lt_irrefl _ (below number (List.contains_iff_mem.mp waits))
  unfold enqueue
  rw [if_neg absent]
  cases pending with
  | nil => rfl
  | cons first rest =>
      rw [List.findIdx?_cons, if_pos (by simpa using below first List.mem_cons_self)]
      rfl

/-- What waits after a turn: the same as before, or the next rung in front of it. -/
theorem pendingAfter_cases (ascending : (index :: rest).Pairwise (· < ·)) :
    pendingAfter count index moved rest = rest ∨
      moved = true ∧ index + 1 < count ∧ (∀ other ∈ rest, index + 1 < other) ∧
        pendingAfter count index moved rest = (index + 1) :: rest := by
  unfold pendingAfter
  split
  next follows =>
    rw [Bool.and_eq_true, decide_eq_true_iff] at follows
    by_cases waits : index + 1 ∈ rest
    · exact Or.inl (enqueue_of_mem waits)
    · have below : ∀ other ∈ rest, index + 1 < other := fun other member =>
        Nat.lt_of_le_of_ne (List.rel_of_pairwise_cons ascending member) fun same =>
          waits (same ▸ member)
      exact Or.inr ⟨follows.1, follows.2, below, enqueue_of_lt below⟩
  next => exact Or.inl rfl

theorem subset_pendingAfter (ascending : (index :: rest).Pairwise (· < ·)) :
    rest ⊆ pendingAfter count index moved rest := by
  rcases pendingAfter_cases ascending with same | ⟨_, _, _, front⟩
  · rw [same]
    exact List.Subset.refl _
  · rw [front]
    exact List.subset_cons_self _ _

/-- No rung that waits after a turn is above the one that has had it. -/
theorem lt_of_mem_pendingAfter (ascending : (index :: rest).Pairwise (· < ·))
    (waits : number ∈ pendingAfter count index moved rest) : index < number := by
  rcases pendingAfter_cases ascending with same | ⟨_, _, _, front⟩
  · rw [same] at waits
    exact List.rel_of_pairwise_cons ascending waits
  · rw [front] at waits
    rcases List.mem_cons.mp waits with rfl | later
    · exact Nat.lt_succ_self _
    · exact List.rel_of_pairwise_cons ascending later

/-- A rung that waits after a turn and not before it follows the one that has moved. -/
theorem eq_of_mem_pendingAfter (ascending : (index :: rest).Pairwise (· < ·))
    (waits : number ∈ pendingAfter count index moved rest) (waitedNot : number ∉ rest) :
    moved = true ∧ number = index + 1 := by
  rcases pendingAfter_cases ascending with same | ⟨isMoved, _, _, front⟩
  · exact absurd (same ▸ waits) waitedNot
  · rw [front] at waits
    exact ⟨isMoved, (List.mem_cons.mp waits).resolve_right waitedNot⟩

end Lists

namespace Drawing

variable {α : Type} [Scalar α] {drawing between after : Drawing α} {index : Nat} {rung : Rung}
  {moved : Bool} {pending rest numbers : List Nat}

/-! ### Turns -/

/-- What laying out one rung does to the bands, the layouts and the routine. -/
theorem exists_of_on_relayRung (relays : (relayRung index rung).on drawing = (.ok moved, between)) :
    ∃ band layout, between.routine = drawing.routine ∧ between.config = drawing.config ∧
      between.bands = drawing.bands.set index (some band) ∧
      between.layouts = putAt drawing.layouts index layout ∧
      moved = hasMoved drawing.bands[index]?.join band.y band.height := by
  unfold relayRung at relays
  obtain ⟨own, same, gets, goesOn⟩ := Action.exists_of_on_bind relays
  cases gets
  obtain ⟨⟨layout, arena⟩, _, settles, goesOn⟩ := Action.exists_of_on_bind goesOn
  rw [Action.on_settled, Prod.mk.injEq] at settles
  obtain ⟨_, rfl⟩ := settles
  obtain ⟨_, _, sets, answers⟩ := Action.exists_of_on_bind goesOn
  cases sets
  cases answers
  exact ⟨⟨drawing.bandStart index, layout.height⟩, layout, rfl, rfl, rfl, rfl, rfl⟩

/-- What every turn of a queue keeps: it ascends, and what does not wait has a layout. -/
structure Awaits (pending : List Nat) (drawing : Drawing α) : Prop where
  ascending : pending.Pairwise (· < ·)
  bounded : ∀ number ∈ pending, number < drawing.routine.size
  cached : ∀ number < drawing.routine.size, number ∉ pending → number < drawing.layouts.length
  bands_length : drawing.bands.length = drawing.routine.size

/-- Another band than before is kept of a rung. -/
def HasSlid (before after : Drawing α) (index : Nat) : Prop :=
  ∃ band, after.bands[index]? = some (some band) ∧
    hasMoved before.bands[index]?.join band.y band.height = true

/-- What a turn leaves as it was, and what it does to the band of its rung. -/
structure Turned (index : Nat) (moved : Bool) (drawing between : Drawing α) : Prop where
  routine_eq : between.routine = drawing.routine
  layouts_eq : ∀ other, other ≠ index → between.layouts[other]? = drawing.layouts[other]?
  bands_eq : ∀ other, other ≠ index → between.bands[other]? = drawing.bands[other]?
  slid : moved = true → HasSlid drawing between index

omit [Scalar α] in
theorem Awaits.index_le (awaits : Awaits (index :: rest) drawing) :
    index ≤ drawing.layouts.length := by
  cases index with
  | zero => exact Nat.zero_le _
  | succ above =>
      have bounded := awaits.bounded _ List.mem_cons_self
      refine awaits.cached above (Nat.lt_of_succ_lt bounded) fun waits => ?_
      rcases List.mem_cons.mp waits with same | later
      · omega
      · have behind := List.rel_of_pairwise_cons awaits.ascending later
        omega

theorem Awaits.turned (awaits : Awaits (index :: rest) drawing)
    (relays : (relayRung index rung).on drawing = (.ok moved, between)) :
    Turned index moved drawing between := by
  obtain ⟨band, layout, sameRoutine, _, bands, layouts, isMoved⟩ := exists_of_on_relayRung relays
  refine ⟨sameRoutine, fun other different => ?_, fun other different => ?_, fun hasMoved => ?_⟩
  · rw [layouts, putAt]
    split
    next => exact List.getElem?_set_ne different.symm
    next beyond =>
      have atEnd := awaits.index_le
      by_cases inside : other < drawing.layouts.length
      · exact List.getElem?_append_left inside
      · rw [List.getElem?_eq_none, List.getElem?_eq_none (Nat.le_of_not_lt inside)]
        rw [List.length_append, List.length_singleton]
        omega
  · rw [bands, List.getElem?_set_ne different.symm]
  · refine ⟨band, ?_, isMoved ▸ hasMoved⟩
    rw [bands, List.getElem?_set_self]
    rw [awaits.bands_length]
    exact awaits.bounded _ List.mem_cons_self

/-- A turn keeps what is known of the queue. -/
theorem Awaits.next (awaits : Awaits (index :: rest) drawing)
    (relays : (relayRung index rung).on drawing = (.ok moved, between)) :
    Awaits (pendingAfter drawing.routine.size index moved rest) between := by
  obtain ⟨band, layout, sameRoutine, _, bands, layouts, _⟩ := exists_of_on_relayRung relays
  have ascending := List.Pairwise.of_cons awaits.ascending
  have bounded : ∀ number ∈ rest, number < drawing.routine.size := fun number member =>
    awaits.bounded number (List.mem_cons_of_mem _ member)
  have grows : drawing.layouts.length ≤ between.layouts.length ∧
      index < between.layouts.length := by
    have atEnd := awaits.index_le
    rw [layouts, putAt]
    split
    next inside => rw [List.length_set]; exact ⟨Nat.le_refl _, inside⟩
    next => rw [List.length_append, List.length_singleton]; omega
  have cached : ∀ number < drawing.routine.size, number ∉ rest →
      number < between.layouts.length := by
    intro number inRoutine absent
    by_cases here : number = index
    · exact here ▸ grows.2
    · refine Nat.lt_of_lt_of_le (awaits.cached number inRoutine ?_) grows.1
      exact fun member => (List.mem_cons.mp member).elim here absent
  have bandsLength : between.bands.length = between.routine.size := by
    rw [bands, List.length_set, sameRoutine]
    exact awaits.bands_length
  rcases @pendingAfter_cases drawing.routine.size index moved rest awaits.ascending with
    same | ⟨_, inRoutine, below, front⟩
  · rw [same]
    rw [← sameRoutine] at bounded cached
    exact ⟨ascending, bounded, cached, bandsLength⟩
  · rw [front]
    refine ⟨List.pairwise_cons.mpr ⟨below, ascending⟩, ?_, ?_, bandsLength⟩
    · rw [sameRoutine]
      intro number member
      rcases List.mem_cons.mp member with rfl | later
      · exact inRoutine
      · exact bounded number later
    · rw [sameRoutine]
      exact fun number inside absent => cached number inside fun member =>
        absent (List.mem_cons_of_mem _ member)

/-! ### Runs -/

/-- What has come up in a queue, against what waited in it at first. -/
structure Processed (pending : List Nat) (drawing : Drawing α) (numbers : List Nat)
    (after : Drawing α) : Prop where
  routine_eq : after.routine = drawing.routine
  ascending : numbers.Pairwise (· < ·)
  bounded : ∀ number ∈ numbers, number < drawing.routine.size
  all : pending ⊆ numbers
  above : ∀ low, (∀ number ∈ pending, low ≤ number) → ∀ number ∈ numbers, low ≤ number
  layouts_eq : ∀ number ∉ numbers, after.layouts[number]? = drawing.layouts[number]?
  bands_eq : ∀ number ∉ numbers, after.bands[number]? = drawing.bands[number]?
  caused : ∀ number ∈ numbers, number ∉ pending →
    ∃ above ∈ numbers, number = above + 1 ∧ HasSlid drawing after above

/-- A turn comes before what the rest of the queue brings up. -/
theorem Processed.turn {index : Nat} {rest : List Nat} {moved : Bool}
    {between : Drawing α} (awaits : Awaits (index :: rest) drawing)
    (turned : Turned index moved drawing between)
    (processed : Processed (pendingAfter drawing.routine.size index moved rest) between numbers
      after) :
    Processed (index :: rest) drawing (index :: numbers) after := by
  have behind : ∀ number ∈ numbers, index + 1 ≤ number :=
    processed.above _ fun _ waits => lt_of_mem_pendingAfter awaits.ascending waits
  have notAgain : index ∉ numbers := fun member => Nat.lt_irrefl _ (behind index member)
  refine ⟨processed.routine_eq.trans turned.routine_eq,
    List.pairwise_cons.mpr ⟨behind, processed.ascending⟩, ?bounded, ?all, ?above, ?layouts,
    ?bands, ?caused⟩
  case bounded =>
    intro number member
    rcases List.mem_cons.mp member with rfl | later
    · exact awaits.bounded _ List.mem_cons_self
    · exact turned.routine_eq ▸ processed.bounded number later
  case all =>
    exact List.cons_subset_cons index
      (List.Subset.trans (subset_pendingAfter awaits.ascending) processed.all)
  case above =>
    intro low isLow number member
    have atIndex := isLow index List.mem_cons_self
    rcases List.mem_cons.mp member with rfl | later
    · exact atIndex
    · exact Nat.le_trans atIndex (Nat.le_of_succ_le (behind number later))
  case layouts =>
    intro number absent
    obtain ⟨different, absent⟩ := List.ne_and_not_mem_of_not_mem_cons absent
    rw [processed.layouts_eq number absent, turned.layouts_eq number different]
  case bands =>
    intro number absent
    obtain ⟨different, absent⟩ := List.ne_and_not_mem_of_not_mem_cons absent
    rw [processed.bands_eq number absent, turned.bands_eq number different]
  case caused =>
    intro number member notMarked
    obtain ⟨different, notWaiting⟩ := List.ne_and_not_mem_of_not_mem_cons notMarked
    have member := (List.mem_cons.mp member).resolve_left different
    by_cases waits : number ∈ pendingAfter drawing.routine.size index moved rest
    · -- The rung has been put into the queue in this turn, for the one above has slid.
      obtain ⟨isMoved, next⟩ := eq_of_mem_pendingAfter awaits.ascending waits notWaiting
      obtain ⟨band, kept, slid⟩ := turned.slid isMoved
      exact ⟨index, List.mem_cons_self, next, band,
        (processed.bands_eq index notAgain).trans kept, slid⟩
    · obtain ⟨above, isAbove, next, band, kept, slid⟩ := processed.caused number member waits
      have apart : above ≠ index := fun same => notAgain (same ▸ isAbove)
      rw [turned.bands_eq above apart] at slid
      exact ⟨above, List.mem_cons_of_mem _ isAbove, next, band, kept, slid⟩

/-- A queue that runs empty has brought up what waited, and what has slid after that. -/
theorem Drains.processed (drains : Drains pending drawing numbers after)
    (awaits : Awaits pending drawing) : Processed pending drawing numbers after := by
  induction drains with
  | done drawing =>
      exact ⟨rfl, .nil, nofun, List.Subset.refl _, fun _ _ => nofun, fun _ _ => rfl,
        fun _ _ => rfl, nofun⟩
  | turn stands relays _ ih =>
      exact Processed.turn awaits (awaits.turned relays) (ih (awaits.next relays))

/-! ### Passes -/

/-- What waits when a pass comes to a rung, which may have been slid by the one above. -/
def waitingFrom (dirty : Nat → Bool) (count index : Nat) (slid : Bool) : List Nat :=
  (List.range' index (count - index)).filter fun number =>
    dirty number || (slid && number == index)

section Passes

omit [Scalar α]

variable {dirty : Nat → Bool} {count : Nat} {slid : Bool}

theorem mem_waitingFrom {number : Nat} : number ∈ waitingFrom dirty count index slid ↔
    (index ≤ number ∧ number < count) ∧ (dirty number = true ∨ slid = true ∧ number = index) := by
  unfold waitingFrom
  rw [List.mem_filter, List.mem_range'_1]
  simp only [Bool.or_eq_true, Bool.and_eq_true, beq_iff_eq]
  refine and_congr_left fun _ => ?_
  omega

theorem waitingFrom_ascending : (waitingFrom dirty count index slid).Pairwise (· < ·) :=
  List.Pairwise.filter _ List.pairwise_lt_range'

theorem waitingFrom_of_le (beyond : count ≤ index) : waitingFrom dirty count index slid = [] := by
  rw [waitingFrom, Nat.sub_eq_zero_of_le beyond]
  rfl

/-- The rung to which a pass comes is the first one that waits, or it does not wait. -/
theorem waitingFrom_of_lt (inside : index < count) :
    waitingFrom dirty count index slid =
      if dirty index || slid then index :: waitingFrom dirty count (index + 1) false
      else waitingFrom dirty count (index + 1) false := by
  have remaining : count - index = count - (index + 1) + 1 := by omega
  have others : (List.range' (index + 1) (count - (index + 1))).filter (fun number =>
      dirty number || (slid && number == index)) = waitingFrom dirty count (index + 1) false := by
    apply List.filter_congr
    intro number member
    have behind := (List.mem_range'_1.mp member).1
    have apart : (number == index) = false := beq_eq_false_iff_ne.mpr (by omega)
    rw [apart, Bool.and_false, Bool.false_and]
  rw [waitingFrom, remaining, List.range'_succ, List.filter_cons, others]
  simp

theorem pendingAfter_waitingFrom :
    pendingAfter count index moved (waitingFrom dirty count (index + 1) false) =
      waitingFrom dirty count (index + 1) moved := by
  unfold pendingAfter
  cases moved with
  | false => rfl
  | true =>
      rw [Bool.true_and]
      split
      next inside =>
        have inside : index + 1 < count := of_decide_eq_true inside
        rw [waitingFrom_of_lt inside, waitingFrom_of_lt inside, Bool.or_true, if_pos rfl,
          Bool.or_false]
        split
        next => exact enqueue_of_mem List.mem_cons_self
        next => exact enqueue_of_lt fun other waits => (mem_waitingFrom.mp waits).1.1
      next outside =>
        have beyond : count ≤ index + 1 := Nat.le_of_not_lt fun inside =>
          outside (decide_eq_true inside)
        rw [waitingFrom_of_le beyond, waitingFrom_of_le beyond]

end Passes

/-- A pass is the run of a queue. -/
theorem drains_of_relayFrom {dirty : Nat → Bool} {slid : Bool} {rungs : List Rung}
    (remaining : drawing.routine.rungs.drop index = rungs)
    (relays : (relayFrom dirty index slid rungs).on drawing = (.ok numbers, after)) :
    Drains (waitingFrom dirty drawing.routine.size index slid) drawing numbers after := by
  induction rungs generalizing index slid drawing numbers with
  | nil =>
      have beyond : drawing.routine.size ≤ index := List.drop_eq_nil_iff.mp remaining
      rw [waitingFrom_of_le beyond]
      cases relays
      exact .done _
  | cons rung rest ih =>
      have stands : drawing.routine.rungs[index]? = some rung :=
        getElem?_of_drop_eq_cons remaining
      have restRemaining : drawing.routine.rungs.drop (index + 1) = rest :=
        drop_succ_of_drop_eq_cons remaining
      have inside : index < drawing.routine.size := (List.getElem?_eq_some_iff.mp stands).1
      rw [waitingFrom_of_lt inside]
      unfold relayFrom at relays
      split at relays
      next waits =>
        obtain ⟨moved, between, relaysOne, goesOn⟩ := Action.exists_of_on_bind relays
        obtain ⟨others, final, relaysOthers, answers⟩ := Action.exists_of_on_bind goesOn
        cases answers
        obtain ⟨_, _, sameRoutine, _⟩ := exists_of_on_relayRung relaysOne
        rw [if_pos waits]
        refine .turn stands relaysOne ?_
        rw [pendingAfter_waitingFrom, ← sameRoutine]
        exact ih (sameRoutine ▸ restRemaining) relaysOthers
      next passedOver =>
        rw [if_neg passedOver]
        exact ih restRemaining relays

omit [Scalar α] in
theorem pendingOf_ascending (count : Nat) (marked : List Nat) :
    (pendingOf count marked).Pairwise (· < ·) := by
  have sorted : (pendingOf count marked).Pairwise (· ≤ ·) := List.pairwise_mergeSort' _ _
  have distinct : (pendingOf count marked).Nodup :=
    (List.mergeSort_perm _ _).nodup_iff.mpr (List.Nodup.filter _ (List.nodup_dedup marked))
  exact (sorted.and distinct).imp fun both => Nat.lt_of_le_of_ne both.1 both.2

omit [Scalar α] in
theorem mem_pendingOf {count number : Nat} {marked : List Nat} :
    number ∈ pendingOf count marked ↔ number ∈ marked ∧ number < count := by
  rw [pendingOf, List.mem_mergeSort, List.mem_filter, List.mem_dedup, decide_eq_true_iff]

omit [Scalar α] in
/-- A pass that is told about the marked rungs begins with them. -/
theorem waitingFrom_eq_pendingOf {dirty : Nat → Bool} {count : Nat} {marked : List Nat}
    (tells : ∀ number < count, dirty number = true ↔ number ∈ marked) :
    waitingFrom dirty count 0 false = pendingOf count marked := by
  apply List.Pairwise.eq_of_mem_iff waitingFrom_ascending (pendingOf_ascending count marked)
  intro number
  rw [mem_waitingFrom, mem_pendingOf]
  constructor
  · rintro ⟨⟨_, inside⟩, isDirty | ⟨none, _⟩⟩
    · exact ⟨(tells number inside).mp isDirty, inside⟩
    · cases none
  · rintro ⟨isMarked, inside⟩
    exact ⟨⟨Nat.zero_le _, inside⟩, Or.inl ((tells number inside).mpr isMarked)⟩

theorem drains_of_relay {dirty : Nat → Bool} {marked : List Nat}
    (fits : drawing.layouts.length ≤ drawing.routine.size)
    (tells : ∀ number < drawing.routine.size, dirty number = true ↔ number ∈ marked)
    (relays : (relay dirty).on drawing = (.ok (), after)) :
    ∃ final, Drains (pendingOf drawing.routine.size marked) drawing after.relaid final ∧
      after = { final with relaid := after.relaid } := by
  unfold relay at relays
  rw [Action.on_bind, Action.on_modify, List.take_of_length_le fits] at relays
  dsimp only at relays
  rw [Action.on_bind, Action.on_get] at relays
  dsimp only at relays
  obtain ⟨numbers, final, passes, reports⟩ := Action.exists_of_on_bind relays
  cases reports
  have drains := drains_of_relayFrom List.drop_zero passes
  rw [waitingFrom_eq_pendingOf tells] at drains
  exact ⟨final, drains, rfl⟩

end Drawing
end LadderDiagram
