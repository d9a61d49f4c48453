import Mathlib.Data.List.Nodup

/-!
# Cutting lists

Edits name places by number.  Most proofs about them are easier once a list has been
cut at that place, into what is before it and what is behind it.
-/

namespace LadderDiagram

theorem insertIdx_append_length {β : Type} (first last : List β) (item : β) :
    (first ++ last).insertIdx first.length item = first ++ item :: last := by
  induction first with
  | nil => simp
  | cons head rest ih => simp [List.insertIdx_succ_cons, ih]

theorem eraseIdx_append_length {β : Type} (first last : List β) (item : β) :
    (first ++ item :: last).eraseIdx first.length = first ++ last := by
  rw [List.eraseIdx_append_of_length_le (Nat.le_refl _), Nat.sub_self, List.eraseIdx_cons_zero]

theorem getElem?_append_length {β : Type} (first last : List β) (item : β) :
    (first ++ item :: last)[first.length]? = some item := by
  rw [List.getElem?_append_right (Nat.le_refl _), Nat.sub_self, List.getElem?_cons_zero]

theorem set_append_length {β : Type} (first last : List β) (before after : β) :
    (first ++ before :: last).set first.length after = first ++ after :: last := by
  rw [List.set_append_right _ _ (Nat.le_refl _), Nat.sub_self, List.set_cons_zero]

theorem set_of_getElem? {β : Type} {items : List β} {place : Nat} {item : β}
    (found : items[place]? = some item) : items.set place item = items := by
  obtain ⟨bounded, rfl⟩ := List.getElem?_eq_some_iff.mp found
  exact List.set_getElem_self bounded

theorem getElem?_of_drop_eq_cons {β : Type} {items rest : List β} {place : Nat} {item : β}
    (remaining : items.drop place = item :: rest) : items[place]? = some item := by
  rw [← List.head?_drop, remaining, List.head?_cons]

theorem drop_succ_of_drop_eq_cons {β : Type} {items rest : List β} {place : Nat} {item : β}
    (remaining : items.drop place = item :: rest) : items.drop (place + 1) = rest := by
  rw [← List.drop_drop, remaining, List.drop_succ_cons, List.drop_zero]

/-- The items up to a gap are those up to an earlier one and those between the two. -/
theorem take_append_drop_take {β : Type} {items : List β} {start finish : Nat}
    (ordered : start ≤ finish) :
    items.take start ++ (items.take finish).drop start = items.take finish := by
  have upToStart : items.take start = (items.take finish).take start := by
    rw [List.take_take, Nat.min_eq_left ordered]
  rw [upToStart, List.take_append_drop]

/-- A list falls into two at each of its gaps. -/
theorem exists_split_at_gap {β : Type} {items : List β} {gap : Nat} (within : gap ≤ items.length) :
    ∃ first last, items = first ++ last ∧ first.length = gap :=
  ⟨items.take gap, items.drop gap, (List.take_append_drop gap items).symm,
    List.length_take_of_le within⟩

/-- A list falls into what is before and what is behind one of its places. -/
theorem exists_split_at_place {β : Type} {items : List β} {place : Nat} {item : β}
    (found : items[place]? = some item) :
    ∃ first last, items = first ++ item :: last ∧ first.length = place := by
  obtain ⟨bounded, rfl⟩ := List.getElem?_eq_some_iff.mp found
  refine ⟨items.take place, items.drop (place + 1), ?_,
    List.length_take_of_le (Nat.le_of_lt bounded)⟩
  rw [List.getElem_cons_drop, List.take_append_drop]

/-- Of two cuts of one list the later one has the item at the earlier one before it. -/
theorem exists_between_of_append_eq {β : Type} {first rest before after : List β} {item : β}
    (same : first ++ item :: rest = before ++ after) (earlier : first.length < before.length) :
    ∃ between, before = first ++ item :: between := by
  have upToItem : first ++ [item] <+: before ++ after :=
    same ▸ ⟨rest, List.append_cons first item rest ▸ rfl⟩
  have shorter : (first ++ [item]).length ≤ before.length := by
    rw [List.length_append, List.length_singleton]
    exact earlier
  obtain ⟨between, rfl⟩ :=
    List.prefix_of_prefix_length_le upToItem (List.prefix_append before _) shorter
  exact ⟨between, (List.append_cons first item between).symm⟩

theorem getElem?_eq_some_iff_of_count_le_one {β : Type} [DecidableEq β] {first last : List β}
    {item : β} (once : (first ++ item :: last).count item ≤ 1) {place : Nat} :
    (first ++ item :: last)[place]? = some item ↔ place = first.length := by
  rw [List.count_append, List.count_cons_self] at once
  have notBefore : item ∉ first := List.count_eq_zero.mp (by omega)
  have notBehind : item ∉ last := List.count_eq_zero.mp (by omega)
  constructor
  · intro stands
    rcases Nat.lt_trichotomy place first.length with before | same | behind
    · rw [List.getElem?_append_left before] at stands
      exact absurd (List.mem_of_getElem? stands) notBefore
    · exact same
    · obtain ⟨distance, rfl⟩ := Nat.exists_eq_add_of_lt behind
      rw [List.getElem?_append_right (by omega), Nat.add_assoc, Nat.add_sub_cancel_left,
        List.getElem?_cons_succ] at stands
      exact absurd (List.mem_of_getElem? stands) notBehind
  · rintro rfl
    exact getElem?_append_length first last item

/-- Items with distinct keys are told apart by them. -/
theorem eq_of_nodup_filterMap {β γ : Type} {items : List β} {read : β → Option γ}
    (distinct : (items.filterMap read).Nodup) {one other : β} {value : γ}
    (isOne : one ∈ items) (isOther : other ∈ items) (reads : read one = some value)
    (readsToo : read other = some value) : one = other := by
  obtain ⟨before, behind, rfl⟩ := List.append_of_mem isOne
  rw [List.filterMap_append, List.filterMap_cons_some reads, List.nodup_middle,
    List.nodup_cons, ← List.filterMap_append] at distinct
  have apart : other ∉ before ++ behind := fun member =>
    distinct.1 (List.mem_filterMap.mpr ⟨other, member, readsToo⟩)
  rcases List.mem_append.mp isOther with inFront | inRest
  · exact absurd (List.mem_append_left _ inFront) apart
  rcases List.mem_cons.mp inRest with same | inBack
  · exact same.symm
  · exact absurd (List.mem_append_right _ inBack) apart

end LadderDiagram
