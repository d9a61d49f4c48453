import LadderDiagram.Drawing.Edit
import LadderDiagram.Proofs.Drawing.Relay

/-!
# What edits make stale

An edit changes the routine, makes room in the bands or closes a gap in them, and
numbers the branches anew.  A rung above the change agrees with the drawing as it did
before, so only the rungs from there on, or the one that was edited, can be stale.
-/

namespace LadderDiagram
namespace Drawing

variable {α : Type} [Scalar α] {drawing : Drawing α} {index : Nat} {rung : Rung}

/-- A rung agrees with any drawing that keeps the same about it and about the rung above. -/
theorem Draws.congr {layout : LayoutResult α} (draws : drawing.Draws index rung layout)
    {other : Drawing α} (sameConfig : other.config = drawing.config)
    (stands : other.routine.rungs[index]? = some rung)
    (sameBands : ∀ place ≤ index, other.bands[place]? = drawing.bands[place]?)
    (cached : other.layouts[index]? = drawing.layouts[index]?)
    (records : ∀ record : Branch α, record.rungNumber = .ofNat index →
      (record ∈ other.arena.records ↔ record ∈ drawing.arena.records)) :
    other.Draws index rung layout := by
  have sameStart : other.bandStart index = drawing.bandStart index := by
    cases index with
    | zero => rw [bandStart, bandStart, sameConfig]
    | succ before => rw [bandStart, bandStart, sameConfig, sameBands before (Nat.le_succ _)]
  refine ⟨stands, ?_, ?_, cached.trans draws.cached, ?_⟩
  · rw [sameConfig, sameStart]
    exact draws.isOf
  · rw [sameStart, sameBands index (Nat.le_refl _)]
    exact draws.band
  · intro record
    rw [draws.branches record, and_congr_left (records record)]

/-! ### What becomes stale -/

/-- An edit of one rung makes that rung stale. -/
theorem LaidOutBut.withRung {stale : Nat → Prop} {own : Instruction → Prop} {after : OpenRung}
    (laid : LaidOutBut stale drawing) (stands : drawing.routine.rungs[index]? = some rung)
    (edited : OpenRung.Edited own ⟨rung, drawing.routine.nextId⟩ after) :
    LaidOutBut (fun other => stale other ∨ other = index)
      { drawing with routine := drawing.routine.withRung index after } := by
  have sameSize : (drawing.routine.withRung index after).size = drawing.routine.size :=
    List.length_set
  refine ⟨laid.sound.withRung stands edited, ?_, ?_, laid.sorted, ?_, ?_⟩
  · exact laid.bands_length.trans sameSize.symm
  · exact Nat.le_trans laid.layouts_length (Nat.le_of_eq sameSize.symm)
  · exact fun record member => sameSize.symm ▸ laid.numbered record member
  · intro other another standsToo fresh
    obtain ⟨wasFresh, different⟩ := not_or.mp fresh
    have stood : drawing.routine.rungs[other]? = some another :=
      (List.getElem?_set_ne (Ne.symm different)).symm.trans standsToo
    obtain ⟨layout, draws⟩ := laid.draws other another stood wasFresh
    exact ⟨layout, draws.congr rfl standsToo (fun _ _ => rfl) rfl fun _ _ => Iff.rfl⟩

/-- The drawing with a new rung before the one with a number, which has no layout yet. -/
def withNewRung (drawing : Drawing α) (index : Nat) (rung : Rung) (nextId : Nat) : Drawing α :=
  { drawing with
    routine :=
      { drawing.routine with
        rungs := drawing.routine.rungs.insertIdx index rung, nextId := nextId }
    bands := drawing.bands.insertIdx index none
    arena := drawing.arena.renumber (openNumber index) }

theorem openNumber_ofNat (index number : Nat) :
    openNumber index (.ofNat number) =
      some (.ofNat (if index ≤ number then number + 1 else number)) := by
  have compared : (Address.ofNat index).isUpTo (.ofNat number) = decide (index ≤ number) := by
    simp [Address.ofNat, Address.isUpTo]
  unfold openNumber
  rw [compared]
  by_cases behind : index ≤ number
  · simp [behind]
  · simp [behind]

/-- A new rung makes itself and all rungs behind it stale. -/
theorem LaidOut.withNewRung (laid : LaidOut drawing) {nextId : Nat}
    (arises : Rung.Arises drawing.routine.nextId nextId rung)
    (within : index ≤ drawing.routine.size) :
    LaidOutBut (fun other => index ≤ other) (drawing.withNewRung index rung nextId) := by
  have newSize : (drawing.withNewRung index rung nextId).routine.size =
      drawing.routine.size + 1 :=
    List.length_insertIdx_of_le_length within rung
  refine ⟨laid.sound.insertIdx arises within, ?_, ?_, laid.sorted.renumber _, ?_, ?_⟩
  · rw [newSize, ← laid.bands_length]
    exact List.length_insertIdx_of_le_length (laid.bands_length.symm ▸ within) none
  · rw [newSize]
    exact Nat.le_succ_of_le laid.layouts_length
  · intro record member
    obtain ⟨old, oldMember, number, renumbered, rfl⟩ := Arena.mem_renumber.mp member
    obtain ⟨place, bounded, named⟩ := laid.numbered old oldMember
    rw [named, openNumber_ofNat] at renumbered
    refine ⟨_, ?_, (Option.some.inj renumbered).symm⟩
    rw [newSize]
    split <;> omega
  · intro other another standsToo fresh
    have before : other < index := Nat.lt_of_not_le fresh
    have stood : drawing.routine.rungs[other]? = some another :=
      (List.getElem?_insertIdx_of_lt before).symm.trans standsToo
    obtain ⟨layout, draws⟩ := laid.draws other another stood not_false
    refine ⟨layout, draws.congr rfl standsToo ?_ rfl ?_⟩
    · exact fun place above => List.getElem?_insertIdx_of_lt (Nat.lt_of_le_of_lt above before)
    · intro record named
      apply Arena.mem_renumber_of_fixed _ _ named
      · rw [openNumber_ofNat, if_neg fresh]
      · intro record member renumbered
        obtain ⟨place, bounded, numbered⟩ := laid.numbered record member
        rw [numbered, openNumber_ofNat] at renumbered
        have same := Address.ofNat_inj.mp (Option.some.inj renumbered)
        rw [numbered, Address.ofNat_inj]
        split at same <;> omega

def withoutRung (drawing : Drawing α) (index : Nat) : Drawing α :=
  { drawing with
    routine := { drawing.routine with rungs := drawing.routine.rungs.eraseIdx index }
    bands := drawing.bands.eraseIdx index
    layouts := drawing.layouts.eraseIdx index
    arena := drawing.arena.renumber (closeNumber index) }

theorem closeNumber_ofNat_of_ne {index number : Nat} (different : number ≠ index) :
    closeNumber index (.ofNat number) =
      some (.ofNat (if index < number then number - 1 else number)) := by
  have apart : Address.ofNat number ≠ .ofNat index := fun same =>
    different (Address.ofNat_inj.mp same)
  unfold closeNumber
  rw [if_neg apart, Address.isAfter_ofNat]
  by_cases behind : index < number
  · obtain ⟨before, rfl⟩ := Nat.exists_eq_succ_of_ne_zero (Nat.ne_zero_of_lt behind)
    simp only [behind, decide_true, if_true]
    simp [Address.ofNat, Address.previous]
  · simp [behind]

theorem closeNumber_ofNat_self (index : Nat) : closeNumber index (.ofNat index) = none :=
  if_pos rfl

/-- A removed rung makes all rungs behind it stale. -/
theorem LaidOut.withoutRung (laid : LaidOut drawing) (bounded : index < drawing.routine.size) :
    LaidOutBut (fun other => index ≤ other) (drawing.withoutRung index) := by
  have newSize : (drawing.withoutRung index).routine.size = drawing.routine.size - 1 :=
    List.length_eraseIdx_of_lt bounded
  have bandsLength : (drawing.withoutRung index).bands.length = drawing.bands.length - 1 :=
    List.length_eraseIdx_of_lt (laid.bands_length.symm ▸ bounded)
  have layoutsLength : (drawing.withoutRung index).layouts.length = drawing.layouts.length - 1 :=
    List.length_eraseIdx_of_lt (laid.length_layouts.symm ▸ bounded)
  refine ⟨laid.sound.eraseIdx index, ?_, ?_, laid.sorted.renumber _, ?_, ?_⟩
  · rw [newSize, bandsLength, laid.bands_length]
  · exact Nat.le_of_eq (by rw [newSize, layoutsLength, laid.length_layouts])
  · intro record member
    obtain ⟨old, oldMember, number, renumbered, rfl⟩ := Arena.mem_renumber.mp member
    obtain ⟨place, inside, named⟩ := laid.numbered old oldMember
    by_cases same : place = index
    · rw [named, same, closeNumber_ofNat_self] at renumbered
      cases renumbered
    · rw [named, closeNumber_ofNat_of_ne same] at renumbered
      refine ⟨_, ?_, (Option.some.inj renumbered).symm⟩
      rw [newSize]
      split <;> omega
  · intro other another standsToo fresh
    have before : other < index := Nat.lt_of_not_le fresh
    have stood : drawing.routine.rungs[other]? = some another :=
      (List.getElem?_eraseIdx_of_lt before).symm.trans standsToo
    obtain ⟨layout, draws⟩ := laid.draws other another stood not_false
    refine ⟨layout, draws.congr rfl standsToo ?_ (List.getElem?_eraseIdx_of_lt before) ?_⟩
    · exact fun place above => List.getElem?_eraseIdx_of_lt (Nat.lt_of_le_of_lt above before)
    · intro record named
      apply Arena.mem_renumber_of_fixed _ _ named
      · rw [closeNumber_ofNat_of_ne (Nat.ne_of_lt before), if_neg (by omega)]
      · intro record member renumbered
        obtain ⟨place, inside, numbered⟩ := laid.numbered record member
        by_cases same : place = index
        · rw [numbered, same, closeNumber_ofNat_self] at renumbered
          cases renumbered
        · rw [numbered, closeNumber_ofNat_of_ne same] at renumbered
          have equal := Address.ofNat_inj.mp (Option.some.inj renumbered)
          rw [numbered, Address.ofNat_inj]
          split at equal <;> omega

end Drawing
end LadderDiagram
