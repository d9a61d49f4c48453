import LadderDiagram.Proofs.Rung.Source
import LadderDiagram.Routine
import Mathlib.Data.List.Flatten

/-!
# Sound routines

The rungs of a routine share one supply of handles.  A routine is sound when each of
its rungs is, no handle stands twice in it, and all of them have been given.  Each
change of a routine is described here once: it fails for an ordinary reason and
leaves the routine as it was, or it changes one rung in the way that is stated.
-/

namespace LadderDiagram

/-- The handles of a rung, in the order of their markers. -/
def Rung.handles (rung : Rung) : List BranchId := openedIds (drafts rung.elements)

theorem Rung.IsSound.nodup_handles {rung : Rung} (sound : rung.IsSound) : rung.handles.Nodup :=
  sound.wellNested.distinct

namespace Routine

/-- The handles of all rungs of a routine. -/
def handles (routine : Routine) : List BranchId := routine.rungs.flatMap Rung.handles

/-- Every rung is sound, no handle stands twice, and none is still to be given. -/
structure IsSound (routine : Routine) : Prop where
  rungs : ∀ rung ∈ routine.rungs, rung.IsSound
  distinct : routine.handles.Nodup
  given : ∀ id ∈ routine.handles, id.LiesIn 0 routine.nextId

variable {routine : Routine} {index : Nat} {rung : Rung}

theorem mem_handles {id : BranchId} :
    id ∈ routine.handles ↔ ∃ rung ∈ routine.rungs, id ∈ rung.handles :=
  List.mem_flatMap

theorem mem_handles_of_getElem? {id : BranchId} (stands : routine.rungs[index]? = some rung)
    (member : id ∈ rung.handles) : id ∈ routine.handles :=
  mem_handles.mpr ⟨rung, List.mem_of_getElem? stands, member⟩

theorem IsSound.rungAt (sound : routine.IsSound) (stands : routine.rungs[index]? = some rung) :
    rung.IsSound :=
  sound.rungs rung (List.mem_of_getElem? stands)

/-- One rung of a sound routine may be edited. -/
theorem IsSound.openRung (sound : routine.IsSound) (stands : routine.rungs[index]? = some rung) :
    OpenRung.IsSound ⟨rung, routine.nextId⟩ :=
  ⟨sound.rungAt stands, fun id member => sound.given id (mem_handles_of_getElem? stands member)⟩

/-- The handles of a routine are those of one rung and those of all others. -/
theorem handles_perm (stands : routine.rungs[index]? = some rung) :
    routine.handles.Perm (rung.handles ++ (routine.rungs.eraseIdx index).flatMap Rung.handles) := by
  obtain ⟨first, last, split, rfl⟩ := exists_split_at_place stands
  unfold handles
  rw [split, eraseIdx_append_length]
  simp only [List.flatMap_append, List.flatMap_cons]
  rw [← List.append_assoc, ← List.append_assoc]
  exact List.perm_append_comm.append_right _

/-- Two rungs of a sound routine have no handle in common. -/
theorem IsSound.apart (sound : routine.IsSound) (stands : routine.rungs[index]? = some rung)
    {other : Nat} {another : Rung} (different : other ≠ index)
    (standsToo : routine.rungs[other]? = some another) {id : BranchId}
    (member : id ∈ rung.handles) : id ∉ another.handles := by
  intro memberToo
  have distinct := (handles_perm stands).nodup_iff.mp sound.distinct
  have kept : another ∈ routine.rungs.eraseIdx index :=
    List.mem_eraseIdx_iff_getElem?.mpr ⟨other, different, standsToo⟩
  exact (List.nodup_append.mp distinct).2.2 id member id
    (List.mem_flatMap.mpr ⟨another, kept, memberToo⟩) rfl

/-- A rung may be replaced by a sound one that shares no handle with the others. -/
theorem IsSound.setRung (sound : routine.IsSound) (stands : routine.rungs[index]? = some rung)
    {another : Rung} (anotherSound : another.IsSound) {nextId : Nat}
    (grows : routine.nextId ≤ nextId) (given : ∀ id ∈ another.handles, id.LiesIn 0 nextId)
    (apart : ∀ other remaining, other ≠ index → routine.rungs[other]? = some remaining →
      ∀ id ∈ another.handles, id ∉ remaining.handles) :
    IsSound { routine.setRung index another with nextId := nextId } := by
  obtain ⟨bounded, _⟩ := List.getElem?_eq_some_iff.mp stands
  have here : (routine.rungs.set index another)[index]? = some another :=
    List.getElem?_set_self bounded
  have others : (routine.rungs.set index another).eraseIdx index =
      routine.rungs.eraseIdx index := by
    obtain ⟨first, last, split, rfl⟩ := exists_split_at_place stands
    rw [split, set_append_length, eraseIdx_append_length, eraseIdx_append_length]
  have parts : List.Perm (handles { routine.setRung index another with nextId := nextId })
      (another.handles ++ (routine.rungs.eraseIdx index).flatMap Rung.handles) := by
    rw [← others]
    exact handles_perm here
  have remainder := (List.nodup_append.mp ((handles_perm stands).nodup_iff.mp sound.distinct)).2.1
  refine ⟨?_, ?_, ?_⟩
  · intro own member
    rcases List.mem_or_eq_of_mem_set member with old | rfl
    · exact sound.rungs own old
    · exact anotherSound
  · rw [parts.nodup_iff, List.nodup_append]
    refine ⟨anotherSound.nodup_handles, remainder, ?_⟩
    rintro id member _ elsewhere rfl
    obtain ⟨remaining, kept, memberToo⟩ := List.mem_flatMap.mp elsewhere
    obtain ⟨other, different, standsToo⟩ := List.mem_eraseIdx_iff_getElem?.mp kept
    exact apart other remaining different standsToo id member memberToo
  · intro id member
    rcases List.mem_append.mp (parts.mem_iff.mp member) with new | elsewhere
    · exact given id new
    · obtain ⟨remaining, kept, memberToo⟩ := List.mem_flatMap.mp elsewhere
      have old : id ∈ routine.handles :=
        mem_handles.mpr ⟨remaining, List.mem_of_mem_eraseIdx kept, memberToo⟩
      exact (sound.given id old).mono (Nat.le_refl _) grows

/-- A rung that has been read may be put anywhere. -/
theorem IsSound.insertIdx (sound : routine.IsSound) {nextId : Nat}
    (arises : Rung.Arises routine.nextId nextId rung) (within : index ≤ routine.size) :
    IsSound { routine with rungs := routine.rungs.insertIdx index rung, nextId := nextId } := by
  have parts : List.Perm (handles { routine with
      rungs := routine.rungs.insertIdx index rung, nextId := nextId })
      (rung.handles ++ routine.handles) :=
    (List.perm_insertIdx rung routine.rungs within).flatMap_right _
  refine ⟨?_, ?_, ?_⟩
  · intro own member
    rcases (List.mem_insertIdx within).mp member with rfl | old
    · exact arises.sound
    · exact sound.rungs own old
  · rw [parts.nodup_iff, List.nodup_append]
    refine ⟨arises.sound.nodup_handles, sound.distinct, ?_⟩
    rintro id member _ elsewhere rfl
    exact (sound.given id elsewhere).ne (arises.fresh id member) rfl
  · intro id member
    rcases List.mem_append.mp (parts.mem_iff.mp member) with new | old
    · exact (arises.fresh id new).mono (Nat.zero_le _) (Nat.le_refl _)
    · exact (sound.given id old).mono (Nat.le_refl _) arises.next_le

/-- A rung may be removed. -/
theorem IsSound.eraseIdx (sound : routine.IsSound) (index : Nat) :
    IsSound { routine with rungs := routine.rungs.eraseIdx index } := by
  have fewer : ((routine.rungs.eraseIdx index).flatMap Rung.handles).Sublist routine.handles :=
    (List.eraseIdx_sublist routine.rungs index).flatMap _
  refine ⟨?_, sound.distinct.sublist fewer, ?_⟩
  · exact fun rung member => sound.rungs rung (List.mem_of_mem_eraseIdx member)
  · exact fun id member => sound.given id (fewer.subset member)

/-! ### What changes of a routine do -/

theorem rungAt_eq_ok_iff {address : Address} :
    routine.rungAt address = .ok (index, rung) ↔
      address = .ofNat index ∧ routine.rungs[index]? = some rung := by
  rw [← Address.exists_place_iff address routine.rungs (index, rung)]
  unfold Routine.rungAt
  cases address.toNat?.bind fun index => routine.rungs[index]?.map (index, ·) <;> simp

theorem rungAt_cases (routine : Routine) (address : Address) :
    (∃ error, error.IsOrdinary ∧ routine.rungAt address = .error error) ∨
      ∃ index rung, address = .ofNat index ∧ routine.rungs[index]? = some rung ∧
        routine.rungAt address = .ok (index, rung) := by
  unfold Routine.rungAt
  cases found : address.toNat?.bind fun index => routine.rungs[index]?.map (index, ·) with
  | none => exact Or.inl ⟨.noRung address routine.size, nofun, rfl⟩
  | some entry =>
      obtain ⟨named, stands⟩ := (Address.exists_place_iff address routine.rungs entry).mp found
      exact Or.inr ⟨entry.1, entry.2, named, stands, rfl⟩

theorem rungAt_of_getElem? (stands : routine.rungs[index]? = some rung) :
    routine.rungAt (.ofNat index) = .ok (index, rung) :=
  rungAt_eq_ok_iff.mpr ⟨rfl, stands⟩

theorem gapAt_eq_ok_iff {place : Address} :
    routine.gapAt place = .ok index ↔ place = .ofNat index ∧ index ≤ routine.size := by
  rw [← Address.upTo?_eq_some_iff]
  unfold Routine.gapAt
  cases place.upTo? routine.size <;> simp

theorem gapAt_cases (routine : Routine) (place : Address) :
    (∃ error, error.IsOrdinary ∧ routine.gapAt place = .error error) ∨
      ∃ index, index ≤ routine.size ∧ place = .ofNat index ∧ routine.gapAt place = .ok index := by
  unfold Routine.gapAt
  cases named : place.upTo? routine.size with
  | none => exact Or.inl ⟨.noRungGap place routine.size, nofun, rfl⟩
  | some index =>
      obtain ⟨isGap, within⟩ := Address.upTo?_eq_some_iff.mp named
      exact Or.inr ⟨index, within, isGap, rfl⟩

/-- Adding a rung fails and changes nothing, or puts in a rung that has been read. -/
theorem insertRung_cases (source : RungSource) (place : Address) (routine : Routine) :
    (∃ error, error.IsOrdinary ∧
        (insertRung source place).on routine = (.error error, routine)) ∨
      ∃ index rung nextId, index ≤ routine.size ∧ place = .ofNat index ∧
        Rung.Arises routine.nextId nextId rung ∧
        (insertRung source place).on routine =
          (.ok index,
            { routine with rungs := routine.rungs.insertIdx index rung, nextId := nextId }) := by
  unfold insertRung makeRung
  rcases routine.gapAt_cases place with ⟨error, ordinary, fails⟩ | ⟨index, within, named, gap⟩
  · refine Or.inl ⟨error, ordinary, ?_⟩
    rw [Action.on_bind_ask, fails]
  rw [Action.on_bind_ask, gap]
  dsimp only
  rw [Action.on_bind, Action.on_within]
  rcases Rung.ofSource_cases source routine.nextId with
    ⟨error, ordinary, fails⟩ | ⟨rung, nextId, arises, reads⟩
  · refine Or.inl ⟨error, ordinary, ?_⟩
    rw [fails]
  · refine Or.inr ⟨index, rung, nextId, within, named, arises, ?_⟩
    rw [reads]
    rfl

/-- Removing a rung fails and changes nothing, or takes one rung out. -/
theorem removeRung_cases (address : Address) (routine : Routine) :
    (∃ error, error.IsOrdinary ∧ (removeRung address).on routine = (.error error, routine)) ∨
      ∃ index rung, address = .ofNat index ∧ routine.rungs[index]? = some rung ∧
        (removeRung address).on routine =
          (.ok index, { routine with rungs := routine.rungs.eraseIdx index }) := by
  unfold removeRung
  rcases routine.rungAt_cases address with
    ⟨error, ordinary, fails⟩ | ⟨index, rung, named, stands, found⟩
  · refine Or.inl ⟨error, ordinary, ?_⟩
    rw [Action.on_bind_ask, fails]
  · refine Or.inr ⟨index, rung, named, stands, ?_⟩
    rw [Action.on_bind_ask, found]
    rfl

/-- The routine with an edited rung in place of the one with a number. -/
def withRung (routine : Routine) (index : Nat) (state : OpenRung) : Routine :=
  { routine.setRung index state.rung with nextId := state.nextId }

theorem on_editRung_of_ok {β : Type} {edit : Action OpenRung β} {answer : β} {after : OpenRung}
    (stands : routine.rungs[index]? = some rung)
    (succeeds : edit.on ⟨rung, routine.nextId⟩ = (.ok answer, after)) :
    (editRung (.ofNat index) edit).on routine = (.ok answer, routine.withRung index after) := by
  unfold editRung
  rw [Action.on_bind_ask, rungAt_of_getElem? stands]
  dsimp only
  rw [Action.on_within, succeeds]
  rfl

/-- Editing a rung fails and changes nothing, or puts an edited rung in its place. -/
theorem editRung_cases {β : Type} {own : Instruction → Prop} {edit : Action OpenRung β}
    (atomic : Rung.IsAtomic own edit) (address : Address) (sound : routine.IsSound) :
    (∃ error, error.IsOrdinary ∧ (editRung address edit).on routine = (.error error, routine)) ∨
      ∃ index rung answer after, address = .ofNat index ∧ routine.rungs[index]? = some rung ∧
        OpenRung.Edited own ⟨rung, routine.nextId⟩ after ∧
        edit.on ⟨rung, routine.nextId⟩ = (.ok answer, after) ∧
        (editRung address edit).on routine = (.ok answer, routine.withRung index after) := by
  unfold editRung
  rcases routine.rungAt_cases address with
    ⟨error, ordinary, fails⟩ | ⟨index, rung, named, stands, found⟩
  · refine Or.inl ⟨error, ordinary, ?_⟩
    rw [Action.on_bind_ask, fails]
  rw [Action.on_bind_ask, found]
  dsimp only
  rw [Action.on_within]
  rcases atomic _ (sound.openRung stands) with
    ⟨error, ordinary, fails⟩ | ⟨answer, after, edited, succeeds⟩
  · refine Or.inl ⟨error, ordinary, ?_⟩
    have same : routine.rungs.set index rung = routine.rungs := set_of_getElem? stands
    rw [fails]
    simp only [setRung, same]
  · refine Or.inr ⟨index, rung, answer, after, named, stands, edited, succeeds, ?_⟩
    rw [succeeds]
    rfl

/-- An edit of one rung that succeeds has succeeded on the rung that it names. -/
theorem exists_of_on_editRung {β : Type} {own : Instruction → Prop} {edit : Action OpenRung β}
    (atomic : Rung.IsAtomic own edit) (sound : routine.IsSound) {address : Address} {answer : β}
    {after : Routine} (succeeds : (editRung address edit).on routine = (.ok answer, after)) :
    ∃ index rung state, address = .ofNat index ∧ routine.rungs[index]? = some rung ∧
      OpenRung.Edited own ⟨rung, routine.nextId⟩ state ∧
      edit.on ⟨rung, routine.nextId⟩ = (.ok answer, state) ∧
      after = routine.withRung index state := by
  rcases editRung_cases atomic address sound with
    ⟨error, _, fails⟩ | ⟨index, rung, own, state, isIndex, stands, edited, edits, succeedsToo⟩
  · cases succeeds.symm.trans fails
  · cases succeeds.symm.trans succeedsToo
    exact ⟨index, rung, state, isIndex, stands, edited, edits, rfl⟩

/-- Taking an instruction out of a rung fails and changes nothing, or takes no handle. -/
theorem takeInstruction_cases (own : Instruction → Prop) (address position : Address)
    (sound : routine.IsSound) :
    (∃ error, error.IsOrdinary ∧
        (editRung address (Rung.takeInstruction position)).on routine = (.error error, routine)) ∨
      ∃ index rung element content after, address = .ofNat index ∧
        routine.rungs[index]? = some rung ∧ .instruction content ∈ drafts rung.elements ∧
        OpenRung.Edited own ⟨rung, routine.nextId⟩ after ∧ after.nextId = routine.nextId ∧
        (editRung address (Rung.takeInstruction position)).on routine =
          (.ok (element, content), routine.withRung index after) := by
  have atomic : Rung.IsAtomic own (Rung.takeInstruction position) :=
    Rung.takeInstruction_isAtomic position
  refine (editRung_cases atomic address sound).imp_right ?_
  rintro ⟨index, rung, answer, after, named, stands, edited, takes, succeeds⟩
  rcases Rung.takeInstruction_cases own (sound.openRung stands) position with
    ⟨error, _, fails⟩ | ⟨element, content, taken, member, _, sameId, takesToo⟩
  · rw [takes] at fails
    cases fails
  · rw [takes] at takesToo
    cases takesToo
    exact ⟨index, rung, element, content, after, named, stands, member, edited, sameId, succeeds⟩

/-- All instructions of a routine have a property. -/
def Holds (own : Instruction → Prop) (routine : Routine) : Prop :=
  ∀ rung ∈ routine.rungs, ∀ content, .instruction content ∈ drafts rung.elements → own content

theorem Holds.withRung {own : Instruction → Prop} (holds : routine.Holds own)
    {after : OpenRung} (stands : routine.rungs[index]? = some rung)
    (edited : OpenRung.Edited own ⟨rung, routine.nextId⟩ after) :
    (routine.withRung index after).Holds own := by
  intro another member content contentMember
  rcases List.mem_or_eq_of_mem_set member with old | rfl
  · exact holds another old content contentMember
  · rcases edited.instructions contentMember with kept | new
    · exact holds rung (List.mem_of_getElem? stands) content kept
    · exact new

theorem Holds.insertIdx {own : Instruction → Prop} (holds : routine.Holds own)
    (reads : ∀ content : Instruction, content.IsRead → own content) {nextId : Nat}
    (arises : Rung.Arises routine.nextId nextId rung) (within : index ≤ routine.size) :
    Holds own { routine with rungs := routine.rungs.insertIdx index rung, nextId := nextId } := by
  intro another member content contentMember
  rcases (List.mem_insertIdx within).mp member with rfl | old
  · exact reads content (arises.read content contentMember)
  · exact holds another old content contentMember

theorem Holds.eraseIdx {own : Instruction → Prop} (holds : routine.Holds own) (index : Nat) :
    Holds own { routine with rungs := routine.rungs.eraseIdx index } :=
  fun another member => holds another (List.mem_of_mem_eraseIdx member)

/-- The comments of a routine say something. -/
def IsCommented (routine : Routine) : Prop := ∀ rung ∈ routine.rungs, rung.IsCommented

theorem IsCommented.withRung {own : Instruction → Prop} (commented : routine.IsCommented)
    {after : OpenRung} (stands : routine.rungs[index]? = some rung)
    (edited : OpenRung.Edited own ⟨rung, routine.nextId⟩ after) :
    (routine.withRung index after).IsCommented := by
  intro another member
  rcases List.mem_or_eq_of_mem_set member with old | rfl
  · exact commented another old
  · exact edited.commented (commented rung (List.mem_of_getElem? stands))

theorem IsCommented.insertIdx (commented : routine.IsCommented) {nextId : Nat}
    (arises : Rung.Arises routine.nextId nextId rung) (within : index ≤ routine.size) :
    IsCommented { routine with rungs := routine.rungs.insertIdx index rung, nextId := nextId } := by
  intro another member
  rcases (List.mem_insertIdx within).mp member with rfl | old
  · exact arises.commented
  · exact commented another old

theorem IsCommented.eraseIdx (commented : routine.IsCommented) (index : Nat) :
    IsCommented { routine with rungs := routine.rungs.eraseIdx index } :=
  fun another member => commented another (List.mem_of_mem_eraseIdx member)

/-- A routine with one rung edited is sound. -/
theorem IsSound.withRung {own : Instruction → Prop} {after : OpenRung} (sound : routine.IsSound)
    (stands : routine.rungs[index]? = some rung)
    (edited : OpenRung.Edited own ⟨rung, routine.nextId⟩ after) :
    (routine.withRung index after).IsSound := by
  apply sound.setRung stands edited.sound.rung edited.nextId_le edited.sound.given
  intro other remaining different standsToo id member elsewhere
  rcases edited.openedIds member with old | new
  · exact sound.apart stands different standsToo old elsewhere
  · have given := sound.given id (mem_handles_of_getElem? standsToo elsewhere)
    exact given.ne new rfl

end Routine
end LadderDiagram
