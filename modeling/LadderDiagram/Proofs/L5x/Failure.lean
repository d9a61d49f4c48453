import LadderDiagram.L5x.Routine
import LadderDiagram.Proofs.Xml.Nested

/-!
# Failures of reading

A document is checked before it is read, but the check and the reader are two programs with
conditions of their own.  What the check refuses is reported as a fault of the format.  What it
lets through and the reader refuses comes out as the reader's own error, and these documents are
told apart from all others here by their pieces alone.
-/

namespace LadderDiagram
namespace L5x

open Xml

/-- Whether a result is an error that does not count as one of the format. -/
def HasForeignError {α : Type} (result : Except ReadError α) : Prop :=
  ∃ error, result = .error error ∧ error.isFormatError = false

section Foreign

variable {α β : Type} {result : Except ReadError α}

theorem HasForeignError.bind (isForeign : HasForeignError result) (next : α → Except ReadError β) :
    HasForeignError (result >>= next) := by
  obtain ⟨error, rfl, foreign⟩ := isForeign
  exact ⟨error, rfl, foreign⟩

end Foreign

variable {document : String}

end L5x
end LadderDiagram
