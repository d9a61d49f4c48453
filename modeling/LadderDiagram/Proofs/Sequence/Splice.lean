import LadderDiagram.Proofs.Sequence.Search

/-!
# Cutting and joining sequences

Every edit of a rung cuts its list of drafts at some gaps, takes a part out, and
puts another one in.  The result is well nested if the new part leaves the same
branches open as the old one did and brings no handle that is taken already.
-/

namespace LadderDiagram

variable {first last block : List Draft}

/-- A part of a well-nested list may be replaced by one that leaves the same branches open. -/
theorem WellNested.splice (old new : List Draft) (nested : WellNested (first ++ old ++ last))
    (same : ∀ opened, branchesAfter? [] first = some opened →
      branchesAfter? opened new = branchesAfter? opened old)
    (distinct : (openedIds (first ++ new ++ last)).Nodup) :
    WellNested (first ++ new ++ last) := by
  refine ⟨?_, distinct⟩
  have closes := nested.closes
  rw [List.append_assoc, branchesAfter?_append] at closes ⊢
  obtain ⟨opened, before, pairsUp⟩ := Option.bind_eq_some_iff.mp closes
  rw [before, Option.bind_some]
  rw [branchesAfter?_append] at pairsUp ⊢
  rw [same opened before]
  exact pairsUp

theorem WellNested.insertInstruction {drafts : List Draft} (nested : WellNested drafts) {gap : Nat}
    (within : gap ≤ drafts.length) (content : Instruction) :
    WellNested (drafts.insertIdx gap (.instruction content)) := by
  obtain ⟨first, last, rfl, rfl⟩ := exists_split_at_gap within
  rw [insertIdx_append_length]
  have spliced := WellNested.splice [] [.instruction content]
    (by simpa using nested) (fun _ _ => rfl) (by simpa using nested.distinct)
  simpa using spliced

theorem WellNested.eraseInstruction {drafts : List Draft} (nested : WellNested drafts)
    {place : Nat} {content : Instruction} (found : drafts[place]? = some (.instruction content)) :
    WellNested (drafts.eraseIdx place) := by
  obtain ⟨first, last, rfl, rfl⟩ := exists_split_at_place found
  rw [eraseIdx_append_length]
  have spliced := WellNested.splice [.instruction content] []
    (by simpa using nested) (fun _ _ => rfl) (by simpa using nested.distinct)
  simpa using spliced

theorem WellNested.setInstruction {drafts : List Draft} (nested : WellNested drafts)
    {place : Nat} {content : Instruction} (found : drafts[place]? = some (.instruction content))
    (another : Instruction) : WellNested (drafts.set place (.instruction another)) := by
  obtain ⟨first, last, rfl, rfl⟩ := exists_split_at_place found
  rw [set_append_length]
  have spliced := WellNested.splice [.instruction content] [.instruction another]
    (by simpa using nested) (fun _ _ => rfl) (by simpa using nested.distinct)
  simpa using spliced

/-- A part that leaves open what was open before it may be taken out. -/
theorem WellNested.remove (nested : WellNested (first ++ block ++ last))
    (neutral : ∀ opened, branchesAfter? [] first = some opened →
      branchesAfter? opened block = some opened) :
    WellNested (first ++ last) := by
  have fewer : (openedIds (first ++ last)).Sublist (openedIds (first ++ block ++ last)) :=
    List.Sublist.filterMap _ ((List.sublist_append_left first block).append_right last)
  have spliced := WellNested.splice block [] nested
    (fun opened before => (neutral opened before).symm)
    (by simpa using nested.distinct.sublist fewer)
  simpa using spliced

/-- A whole branch leaves open what was open before it. -/
theorem IsBranch.neutral {id : BranchId} (isBranch : IsBranch id block)
    (opened : List BranchId) : branchesAfter? opened block = some opened :=
  branchesAfter?_under isBranch.pairsUp opened

/-- A whole branch may be put into any gap of the others. -/
theorem WellNested.insertBranch {id : BranchId} (nested : WellNested (first ++ last))
    (isBranch : IsBranch id block) (distinct : (openedIds (first ++ block ++ last)).Nodup) :
    WellNested (first ++ block ++ last) := by
  apply WellNested.splice [] block (by simpa using nested) _ distinct
  intro opened _
  exact isBranch.neutral opened

/-- A whole branch that is taken out may be put into any gap of what is left. -/
theorem WellNested.moveBranch {id : BranchId}
    (nested : WellNested (first ++ block ++ last)) (isBranch : IsBranch id block) (place : Nat) :
    WellNested ((first ++ last).take place ++ block ++ (first ++ last).drop place) := by
  have others : WellNested (first ++ last) := nested.remove fun opened _ => isBranch.neutral opened
  rw [← List.take_append_drop place (first ++ last)] at others
  apply others.insertBranch isBranch
  have moved : (openedIds ((first ++ last).take place ++ block ++ (first ++ last).drop place)).Perm
      (openedIds (first ++ block ++ last)) := by
    apply List.Perm.filterMap
    have back : ((first ++ last).take place ++ (first ++ last).drop place ++ block).Perm
        (first ++ last ++ block) := by
      rw [List.take_append_drop]
    have outwards (before after : List Draft) :
        (before ++ block ++ after).Perm (before ++ after ++ block) := by
      rw [List.append_assoc, List.append_assoc]
      exact List.perm_append_comm.append_left before
    exact (outwards _ _).trans (back.trans (outwards _ _).symm)
  exact moved.nodup_iff.mpr nested.distinct

/-- A run of whole branches may be wrapped into a branch with a further, empty rail. -/
theorem WellNested.wrap {id railId : BranchId} (nested : WellNested (first ++ block ++ last))
    (whole : branchesAfter? [] block = some [])
    (free : id ∉ openedIds (first ++ block ++ last))
    (railFree : railId ∉ openedIds (first ++ block ++ last)) (different : id ≠ railId) :
    WellNested
      (first ++ (.branchStart id :: block ++ [.branchNext railId, .branchEnd id]) ++ last) := by
  apply WellNested.splice block _ nested
  · intro opened _
    have inner : branchesAfter? (id :: opened) block = some (id :: opened) :=
      branchesAfter?_under whole (id :: opened)
    have outer : branchesAfter? opened block = some opened := branchesAfter?_under whole opened
    rw [List.cons_append, branchesAfter?_branchStart, branchesAfter?_append, inner, outer,
      Option.bind_some, branchesAfter?_branchNext]
    exact branchesAfter?_branchEnd id []
  · have moved : (openedIds (first ++ (.branchStart id :: block ++
        [.branchNext railId, .branchEnd id]) ++ last)).Perm
        (id :: railId :: openedIds (first ++ block ++ last)) := by
      rw [List.perm_iff_count]
      intro other
      simp only [openedIds_append, openedIds_branchStart, openedIds_branchNext,
        openedIds_branchEnd, openedIds_nil, List.cons_append, List.count_append, List.count_cons,
        List.count_nil]
      omega
    rw [moved.nodup_iff, List.nodup_cons, List.nodup_cons]
    exact ⟨fun member => (List.mem_cons.mp member).elim different free, railFree,
      nested.distinct⟩

/-- A further rail may be opened in a gap inside a branch. -/
theorem WellNested.insertRail {id innermost : BranchId} {outer : List BranchId}
    (nested : WellNested (first ++ last))
    (within : branchesAfter? [] first = some (innermost :: outer))
    (free : id ∉ openedIds (first ++ last)) :
    WellNested (first ++ .branchNext id :: last) := by
  have spliced : WellNested (first ++ [.branchNext id] ++ last) := by
    apply WellNested.splice [] [.branchNext id] (by simpa using nested)
    · intro opened before
      obtain rfl : opened = innermost :: outer := Option.some.inj (before.symm.trans within)
      rfl
    · have moved : (openedIds (first ++ [.branchNext id] ++ last)).Perm
          (id :: openedIds (first ++ last)) := by
        rw [List.perm_iff_count]
        intro other
        simp only [openedIds_append, openedIds_branchNext, openedIds_nil, List.count_append,
          List.count_cons, List.count_nil]
        omega
      rw [moved.nodup_iff, List.nodup_cons]
      exact ⟨free, nested.distinct⟩
  simpa using spliced

end LadderDiagram
