import LadderDiagram.Layout.Branch
import Mathlib.Data.List.Nodup

/-!
# Arenas in order

The records of an arena stand in the order of their handles, each handle once.  Then a
record is found under its handle, a record that is put in displaces at most the one
with its handle, and an arena is determined by the records that it holds.
-/

namespace LadderDiagram

variable {α : Type}

@[simp] theorem Address.isAfter_ofNat (first second : Nat) :
    (ofNat first).isAfter (ofNat second) = decide (second < first) := by
  simp [ofNat, isAfter]

/-- Both handles are counted ones, and the first one was given first. -/
def Branch.Precedes (first second : Branch α) : Prop :=
  ∃ own other, first.id = .ofNat own ∧ second.id = .ofNat other ∧ own < other

theorem Branch.Precedes.ne {first second : Branch α} (precedes : first.Precedes second) :
    first.id ≠ second.id := by
  obtain ⟨own, other, isOwn, isOther, less⟩ := precedes
  rw [isOwn, isOther, ne_eq, Address.ofNat_inj]
  exact Nat.ne_of_lt less

theorem Branch.Precedes.trans {first second third : Branch α} (precedes : first.Precedes second)
    (follows : second.Precedes third) : first.Precedes third := by
  obtain ⟨own, other, isOwn, isOther, less⟩ := precedes
  obtain ⟨middle, last, isMiddle, isLast, lessToo⟩ := follows
  obtain rfl : middle = other := Address.ofNat_inj.mp (isMiddle.symm.trans isOther)
  exact ⟨own, last, isOwn, isLast, Nat.lt_trans less lessToo⟩

namespace Arena

/-- The handles are counted ones, each of them smaller than the next. -/
structure IsSorted (arena : Arena α) : Prop where
  counted : ∀ record ∈ arena.records, ∃ value, record.id = .ofNat value
  ascending : arena.records.Pairwise Branch.Precedes

theorem isSorted_empty : IsSorted (.empty : Arena α) :=
  ⟨fun _ member => absurd member List.not_mem_nil, .nil⟩

variable {arena : Arena α}

theorem IsSorted.sublist (sorted : arena.IsSorted) {fewer : List (Branch α)}
    (sublist : fewer.Sublist arena.records) : IsSorted ⟨fewer⟩ :=
  ⟨fun record member => sorted.counted record (sublist.subset member),
    sorted.ascending.sublist sublist⟩

theorem IsSorted.nodup (sorted : arena.IsSorted) : arena.records.Nodup :=
  sorted.ascending.imp fun precedes same => precedes.ne (congrArg Branch.id same)

theorem IsSorted.get?_eq (sorted : arena.IsSorted) {record : Branch α}
    (member : record ∈ arena.records) : arena.get? record.id = some record := by
  obtain ⟨records⟩ := arena
  have ascending := sorted.ascending
  clear sorted
  change records.find? (·.id == record.id) = some record
  induction records with
  | nil => exact absurd member List.not_mem_nil
  | cons first rest ih =>
      obtain ⟨precedes, others⟩ := List.pairwise_cons.mp ascending
      rcases List.mem_cons.mp member with rfl | later
      · exact List.find?_cons_of_pos (beq_iff_eq.mpr rfl)
      · have different : (first.id == record.id) = false :=
          beq_eq_false_iff_ne.mpr (precedes record later).ne
        rw [List.find?_cons, different]
        exact ih later others

theorem IsSorted.get?_eq_some_iff (sorted : arena.IsSorted) {id : BranchId} {record : Branch α} :
    arena.get? id = some record ↔ record ∈ arena.records ∧ record.id = id := by
  constructor
  · intro found
    exact ⟨List.mem_of_find?_eq_some found, beq_iff_eq.mp (List.find?_some found :)⟩
  · rintro ⟨member, rfl⟩
    exact sorted.get?_eq member

/-- Two arenas in order that hold the same records are equal. -/
theorem IsSorted.ext (sorted : arena.IsSorted) {other : Arena α} (otherSorted : other.IsSorted)
    (same : ∀ record, record ∈ arena.records ↔ record ∈ other.records) : arena = other := by
  have permuted : arena.records.Perm other.records :=
    (List.perm_ext_iff_of_nodup sorted.nodup otherSorted.nodup).mpr same
  have noCycle (first second : Branch α) (_ : first ∈ arena.records)
      (_ : second ∈ other.records) (precedes : first.Precedes second)
      (follows : second.Precedes first) : first = second :=
    absurd rfl (precedes.trans follows).ne
  have equal := permuted.eq_of_pairwise noCycle sorted.ascending otherSorted.ascending
  cases arena
  cases other
  exact congrArg Arena.mk equal

/-! ### Putting records in -/

theorem insertRecord_cons_cases {branch first : Branch α} {value own : Nat}
    (isValue : branch.id = .ofNat value) (isOwn : first.id = .ofNat own) (rest : List (Branch α)) :
    branch.Precedes first ∧ insertRecord branch (first :: rest) = branch :: first :: rest ∨
    branch.id = first.id ∧ insertRecord branch (first :: rest) = branch :: rest ∨
    first.Precedes branch ∧
      insertRecord branch (first :: rest) = first :: insertRecord branch rest := by
  rw [insertRecord, isOwn, isValue, Address.isAfter_ofNat]
  rcases Nat.lt_trichotomy value own with before | rfl | behind
  · rw [if_pos (decide_eq_true before)]
    exact Or.inl ⟨⟨value, own, isValue, isOwn, before⟩, rfl⟩
  · rw [if_neg (by simp), if_pos rfl]
    exact Or.inr (Or.inl ⟨rfl, rfl⟩)
  · have different : Address.ofNat value ≠ .ofNat own := by
      rw [ne_eq, Address.ofNat_inj]
      exact Nat.ne_of_gt behind
    rw [if_neg (by simpa using Nat.le_of_lt behind), if_neg different]
    exact Or.inr (Or.inr ⟨⟨own, value, isOwn, isValue, behind⟩, rfl⟩)

/-- A record that is put in displaces the one with its handle and no other. -/
theorem IsSorted.mem_insert (sorted : arena.IsSorted) {branch : Branch α} {value : Nat}
    (isValue : branch.id = .ofNat value) {record : Branch α} :
    record ∈ (arena.insert branch).records ↔
      record = branch ∨ record ∈ arena.records ∧ record.id ≠ branch.id := by
  obtain ⟨records⟩ := arena
  obtain ⟨counted, ascending⟩ := sorted
  change record ∈ insertRecord branch records ↔ record = branch ∨ record ∈ records ∧ _
  induction records with
  | nil => simp [insertRecord]
  | cons first rest ih =>
      obtain ⟨own, isOwn⟩ := counted first List.mem_cons_self
      obtain ⟨precedes, others⟩ := List.pairwise_cons.mp ascending
      have countedRest := fun record member => counted record (List.mem_cons_of_mem _ member)
      rcases insertRecord_cons_cases isValue isOwn rest with
        ⟨before, inserted⟩ | ⟨same, inserted⟩ | ⟨behind, inserted⟩
      · -- Every record from here on has a greater handle.
        have greater : ∀ record ∈ first :: rest, record.id ≠ branch.id := by
          intro record member
          rcases List.mem_cons.mp member with rfl | later
          · exact before.ne.symm
          · exact (before.trans (precedes record later)).ne.symm
        rw [inserted, List.mem_cons]
        constructor
        · exact Or.imp_right fun member => ⟨member, greater record member⟩
        · exact Or.imp_right And.left
      · rw [inserted, List.mem_cons, List.mem_cons]
        constructor
        · refine Or.imp_right fun later => ⟨Or.inr later, ?_⟩
          rw [same]
          exact (precedes record later).ne.symm
        · rintro (isBranch | ⟨rfl | later, different⟩)
          · exact Or.inl isBranch
          · exact absurd same.symm different
          · exact Or.inr later
      · rw [inserted, List.mem_cons, ih countedRest others, List.mem_cons]
        constructor
        · rintro (rfl | isBranch | ⟨later, apart⟩)
          · exact Or.inr ⟨Or.inl rfl, behind.ne⟩
          · exact Or.inl isBranch
          · exact Or.inr ⟨Or.inr later, apart⟩
        · rintro (isBranch | ⟨isFirst | later, apart⟩)
          · exact Or.inr (Or.inl isBranch)
          · exact Or.inl isFirst
          · exact Or.inr (Or.inr ⟨later, apart⟩)

theorem IsSorted.insert (sorted : arena.IsSorted) {branch : Branch α} {value : Nat}
    (isValue : branch.id = .ofNat value) : (arena.insert branch).IsSorted := by
  constructor
  · intro record member
    rcases (sorted.mem_insert isValue).mp member with rfl | ⟨old, _⟩
    · exact ⟨value, isValue⟩
    · exact sorted.counted record old
  obtain ⟨records⟩ := arena
  obtain ⟨counted, ascending⟩ := sorted
  change (insertRecord branch records).Pairwise Branch.Precedes
  induction records with
  | nil => simp [insertRecord]
  | cons first rest ih =>
      obtain ⟨own, isOwn⟩ := counted first List.mem_cons_self
      obtain ⟨precedes, others⟩ := List.pairwise_cons.mp ascending
      have countedRest := fun record member => counted record (List.mem_cons_of_mem _ member)
      rcases insertRecord_cons_cases isValue isOwn rest with
        ⟨before, inserted⟩ | ⟨same, inserted⟩ | ⟨behind, inserted⟩
      · rw [inserted, List.pairwise_cons]
        refine ⟨?_, ascending⟩
        intro record member
        rcases List.mem_cons.mp member with rfl | later
        · exact before
        · exact before.trans (precedes record later)
      · rw [inserted, List.pairwise_cons]
        refine ⟨?_, others⟩
        intro record later
        obtain ⟨start, finish, isStart, isFinish, less⟩ := precedes record later
        exact ⟨start, finish, same.trans isStart, isFinish, less⟩
      · rw [inserted, List.pairwise_cons]
        refine ⟨?_, ih countedRest others⟩
        intro record member
        have restSorted : IsSorted ⟨rest⟩ := ⟨countedRest, others⟩
        rcases (restSorted.mem_insert isValue).mp member with rfl | ⟨later, _⟩
        · exact behind
        · exact precedes record later

/-- Records with different handles that are put in displace those with their handles. -/
theorem IsSorted.foldl_insert (sorted : arena.IsSorted) {branches : List (Branch α)}
    (counted : ∀ branch ∈ branches, ∃ value, branch.id = .ofNat value)
    (distinct : (branches.map (·.id)).Nodup) :
    (branches.foldl Arena.insert arena).IsSorted ∧
      ∀ record, record ∈ (branches.foldl Arena.insert arena).records ↔
        record ∈ branches ∨ record ∈ arena.records ∧ record.id ∉ branches.map (·.id) := by
  induction branches generalizing arena with
  | nil => exact ⟨sorted, fun record => by simp⟩
  | cons branch rest ih =>
      obtain ⟨value, isValue⟩ := counted branch List.mem_cons_self
      rw [List.map_cons, List.nodup_cons] at distinct
      obtain ⟨apart, restDistinct⟩ := distinct
      obtain ⟨finalSorted, members⟩ := ih (sorted.insert isValue)
        (fun other member => counted other (List.mem_cons_of_mem _ member)) restDistinct
      refine ⟨finalSorted, fun record => ?_⟩
      rw [List.foldl_cons, members record, sorted.mem_insert isValue, List.mem_cons, List.map_cons,
        List.mem_cons, not_or]
      constructor
      · rintro (later | ⟨rfl | ⟨old, different⟩, others⟩)
        · exact Or.inl (Or.inr later)
        · exact Or.inl (Or.inl rfl)
        · exact Or.inr ⟨old, different, others⟩
      · rintro ((rfl | later) | ⟨old, different, others⟩)
        · exact Or.inr ⟨Or.inl rfl, apart⟩
        · exact Or.inl later
        · exact Or.inr ⟨Or.inr ⟨old, different⟩, others⟩

/-- The records of a rung are replaced by others; those of other rungs stay if they can. -/
theorem IsSorted.replaceRung (sorted : arena.IsSorted) {branches : List (Branch α)}
    (counted : ∀ branch ∈ branches, ∃ value, branch.id = .ofNat value)
    (distinct : (branches.map (·.id)).Nodup) (number : Address) :
    (arena.replaceRung number branches).IsSorted ∧
      ∀ record, record ∈ (arena.replaceRung number branches).records ↔
        record ∈ branches ∨ record ∈ arena.records ∧ record.rungNumber ≠ number ∧
          record.id ∉ branches.map (·.id) := by
  have cleared : (arena.clearRung number).IsSorted :=
    sorted.sublist List.filter_sublist
  obtain ⟨finalSorted, members⟩ := cleared.foldl_insert counted distinct
  refine ⟨finalSorted, fun record => ?_⟩
  have remaining : record ∈ (arena.clearRung number).records ↔
      record ∈ arena.records ∧ record.rungNumber ≠ number := by
    simp [clearRung]
  rw [Arena.replaceRung, members record, remaining, and_assoc]

/-! ### Looking records up -/

theorem IsSorted.get?_insert (sorted : arena.IsSorted) {branch : Branch α} {value : Nat}
    (isValue : branch.id = .ofNat value) (id : BranchId) :
    (arena.insert branch).get? id = if branch.id = id then some branch else arena.get? id := by
  apply Option.ext
  intro record
  rw [(sorted.insert isValue).get?_eq_some_iff, sorted.mem_insert isValue]
  split
  next own =>
    subst own
    rw [Option.some.injEq]
    constructor
    · rintro ⟨isBranch | ⟨_, apart⟩, same⟩
      · exact isBranch.symm
      · exact absurd same apart
    · rintro rfl
      exact ⟨.inl rfl, rfl⟩
  next other =>
    rw [sorted.get?_eq_some_iff]
    constructor
    · rintro ⟨rfl | ⟨member, _⟩, same⟩
      · exact absurd same other
      · exact ⟨member, same⟩
    · rintro ⟨member, rfl⟩
      exact ⟨.inr ⟨member, Ne.symm other⟩, rfl⟩

/-- Of records that are put in one after the other the last one with a handle is found. -/
theorem IsSorted.get?_foldl_insert (sorted : arena.IsSorted) {branches : List (Branch α)}
    (counted : ∀ branch ∈ branches, ∃ value, branch.id = .ofNat value) :
    (branches.foldl Arena.insert arena).IsSorted ∧
      ∀ id, (branches.foldl Arena.insert arena).get? id =
        (branches.reverse.find? (·.id == id)).or (arena.get? id) := by
  induction branches generalizing arena with
  | nil => exact ⟨sorted, fun id => rfl⟩
  | cons branch rest ih =>
      obtain ⟨value, isValue⟩ := counted branch List.mem_cons_self
      obtain ⟨finalSorted, found⟩ := ih (sorted.insert isValue)
        fun other member => counted other (List.mem_cons_of_mem _ member)
      refine ⟨finalSorted, fun id => ?_⟩
      rw [List.foldl_cons, found, sorted.get?_insert isValue, List.reverse_cons, List.find?_append,
        Option.or_assoc, List.find?_cons, List.find?_nil]
      by_cases own : branch.id = id
      · rw [if_pos own, beq_iff_eq.mpr own]
        rfl
      · rw [if_neg own, beq_eq_false_iff_ne.mpr own]
        rfl

theorem IsSorted.get?_clearRung (sorted : arena.IsSorted) (number : Address) (id : BranchId) :
    (arena.clearRung number).get? id = (arena.get? id).filter (·.rungNumber != number) := by
  have cleared : (arena.clearRung number).IsSorted := sorted.sublist List.filter_sublist
  apply Option.ext
  intro record
  rw [cleared.get?_eq_some_iff, Option.filter_eq_some_iff, sorted.get?_eq_some_iff, clearRung,
    List.mem_filter]
  exact and_right_comm

/-- The records of a rung are forgotten, and those that replace them are found instead. -/
theorem IsSorted.get?_replaceRung (sorted : arena.IsSorted) {branches : List (Branch α)}
    (counted : ∀ branch ∈ branches, ∃ value, branch.id = .ofNat value) (number : Address) :
    (arena.replaceRung number branches).IsSorted ∧
      ∀ id, (arena.replaceRung number branches).get? id =
        (branches.reverse.find? (·.id == id)).or
          ((arena.get? id).filter (·.rungNumber != number)) := by
  have cleared : (arena.clearRung number).IsSorted := sorted.sublist List.filter_sublist
  obtain ⟨finalSorted, found⟩ := cleared.get?_foldl_insert counted
  refine ⟨finalSorted, fun id => ?_⟩
  rw [Arena.replaceRung, found, sorted.get?_clearRung]

/-! ### Numbering records anew -/

theorem mem_renumber {number? : Address → Option Address} {record : Branch α} :
    record ∈ (arena.renumber number?).records ↔
      ∃ old ∈ arena.records, ∃ number, number? old.rungNumber = some number ∧
        { old with rungNumber := number } = record := by
  unfold renumber
  rw [List.mem_filterMap]
  simp only [Option.map_eq_some_iff]

/-- A rung that keeps its number, and shares it with no other rung, keeps its records. -/
theorem mem_renumber_of_fixed {number? : Address → Option Address} {number : Address}
    (fixed : number? number = some number)
    (alone : ∀ record ∈ arena.records,
      number? record.rungNumber = some number → record.rungNumber = number)
    {record : Branch α} (named : record.rungNumber = number) :
    record ∈ (arena.renumber number?).records ↔ record ∈ arena.records := by
  rw [mem_renumber]
  constructor
  · rintro ⟨old, member, another, renumbered, rfl⟩
    obtain rfl : another = number := named
    have stays := alone old member renumbered
    rw [← stays]
    exact member
  · intro member
    refine ⟨record, member, number, ?_, ?_⟩
    · rw [named]
      exact fixed
    · rw [← named]

theorem IsSorted.renumber (sorted : arena.IsSorted) (number? : Address → Option Address) :
    (arena.renumber number?).IsSorted := by
  constructor
  · intro record member
    obtain ⟨old, oldMember, number, _, rfl⟩ := mem_renumber.mp member
    exact sorted.counted old oldMember
  · unfold Arena.renumber
    apply List.Pairwise.filterMap _ _ sorted.ascending
    intro first second precedes own isOwn other isOther
    obtain ⟨number, _, rfl⟩ := Option.map_eq_some_iff.mp isOwn
    obtain ⟨another, _, rfl⟩ := Option.map_eq_some_iff.mp isOther
    exact precedes

end Arena
end LadderDiagram
