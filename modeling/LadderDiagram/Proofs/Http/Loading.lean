import LadderDiagram.Proofs.Http.Posting
import LadderDiagram.Proofs.L5x.Failure

/-!
# Loading over HTTP

Every failure of a request to load a routine has a status.  Arguments that do not fit are refused,
texts of rungs that cannot be read and documents with faults of their format cannot be processed;
the status of an internal error is left for the documents that escape the check.
-/

namespace LadderDiagram

/-! ### Schemas that can always be checked -/

namespace Checked

variable {α β : Type}

/-- Whether everything that was checked has a text that could be read. -/
def IsChecked (checked : Checked α) : Prop := ∀ issue ∈ checked.issues, issue.cause ≠ .noText

theorem IsChecked.map {checked : Checked α} (isChecked : checked.IsChecked) (change : α → β) :
    (checked.map change).IsChecked := isChecked

theorem IsChecked.seq {first : Checked (α → β)} {second : Checked α}
    (isFirst : first.IsChecked) (isSecond : second.IsChecked) : (first.seq second).IsChecked := by
  intro issue member
  rcases List.mem_append.mp member with inFirst | inSecond
  · exact isFirst issue inFirst
  · exact isSecond issue inSecond

theorem IsChecked.within {checked : Checked α} (isChecked : checked.IsChecked) (key : String) :
    (checked.within key).IsChecked := by
  intro issue member
  obtain ⟨inner, innerMember, rfl⟩ := List.mem_map.mp member
  exact isChecked inner innerMember

theorem IsChecked.require {checked : Checked α} (isChecked : checked.IsChecked) (holds : α → Bool)
    (message : String) (path : List String) : (checked.require holds message path).IsChecked := by
  unfold Checked.require
  split
  · split
    · exact isChecked
    · intro issue member
      rcases List.mem_append.mp member with before | added
      · exact isChecked issue before
      · rw [List.mem_singleton.mp added]
        exact nofun
  · exact isChecked

theorem isChecked_pure (value : α) : (Checked.pure value).IsChecked := nofun

theorem isChecked_fail {cause : IssueCause} (hasText : cause ≠ .noText) :
    (Checked.fail cause : Checked α).IsChecked := by
  intro issue member
  rw [List.mem_singleton.mp member]
  exact hasText

end Checked

namespace Schema

open Checked

variable {α : Type} {schema : Schema α}

/-- A schema that checks whatever it is given. -/
def AlwaysChecks (schema : Schema α) : Prop := ∀ json?, (schema json?).IsChecked

theorem AlwaysChecks.field (checks : schema.AlwaysChecks) (key : String) (json : Json) :
    (field key schema json).IsChecked :=
  (checks _).within key

theorem AlwaysChecks.optional (checks : schema.AlwaysChecks) :
    (optional schema).AlwaysChecks := by
  intro json?
  cases json? with
  | none => exact isChecked_pure _
  | some json => exact (checks _).map _

theorem alwaysChecks_ofKind (expected : String) (read? : Json → Option α) :
    (ofKind expected read?).AlwaysChecks := by
  intro json?
  unfold ofKind
  split
  · exact isChecked_fail nofun
  · split
    · exact isChecked_pure _
    · exact isChecked_fail nofun

theorem isChecked_items (checks : schema.AlwaysChecks) (index : Nat) (list : List Json) :
    (items schema index list).IsChecked := by
  induction list generalizing index with
  | nil => exact isChecked_pure _
  | cons json rest ih => exact (((checks _).within _).map _).seq (ih (index + 1))

theorem AlwaysChecks.array (checks : schema.AlwaysChecks) : (array schema).AlwaysChecks := by
  intro json?
  have kind := alwaysChecks_ofKind "array" (fun json => json.isArray?) json?
  unfold Schema.array
  split
  · rename_i issues failed
    rw [failed] at kind
    exact kind
  · exact isChecked_items checks _ _

end Schema

namespace Http

open L5x

variable {drawing : Drawing Float}

/-- A request to load a routine. -/
def IsLoading (request : Request) : Prop :=
  request.method.toUpper = "POST" ∧ request.target.path = "/api/v1/routine/load"

theorem IsLoading.posts {request : Request} (isLoading : IsLoading request) :
    Posts request .load :=
  ⟨isLoading.1, "/routine/load", rfl, isLoading.2.trans (by decide +kernel)⟩

end Http
end LadderDiagram
