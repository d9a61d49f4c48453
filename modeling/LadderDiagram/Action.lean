import LadderDiagram.Error

/-!
# Actions

An action works on a state, and it answers or fails.  What it has done before it
fails stays done: whoever wants the old state back keeps a copy and puts it back.
-/

namespace LadderDiagram

/-- A change of a state that answers or fails; a failure keeps what was done before it. -/
abbrev Action (σ β : Type) : Type := ExceptT LadderError (StateM σ) β

/-! ### Outcomes -/

section Outcomes

variable {ε β γ : Type}

@[simp] theorem ok_bind (answer : β) (next : β → Except ε γ) :
    (Except.ok answer >>= next) = next answer := rfl

@[simp] theorem error_bind (error : ε) (next : β → Except ε γ) :
    (Except.error error >>= next) = .error error := rfl

@[simp] theorem pure_eq_ok (answer : β) : (pure answer : Except ε β) = .ok answer := rfl

@[simp] theorem throw_eq_error (error : ε) : (throw error : Except ε β) = .error error := rfl

theorem exists_of_bind {first : Except ε β} {next : β → Except ε γ} {answer : γ}
    (succeeds : first >>= next = .ok answer) :
    ∃ between, first = .ok between ∧ next between = .ok answer := by
  cases first with
  | error error => cases succeeds
  | ok between => exact ⟨between, rfl, succeeds⟩

variable {outcome : Except ε β}

theorem toOption_eq_some_iff {answer : β} :
    outcome.toOption = some answer ↔ outcome = .ok answer := by
  cases outcome with
  | error error => exact ⟨nofun, nofun⟩
  | ok own => exact ⟨fun same => congrArg _ (Option.some.inj same), congrArg Except.toOption⟩

theorem exists_ok_of_isSome (answered : outcome.toOption.isSome = true) :
    ∃ answer, outcome = .ok answer := by
  obtain ⟨answer, isAnswer⟩ := Option.isSome_iff_exists.mp answered
  exact ⟨answer, toOption_eq_some_iff.mp isAnswer⟩

theorem exists_ok_pair_of_isSome {step : Except ε β × γ}
    (answered : step.1.toOption.isSome = true) : ∃ answer after, step = (.ok answer, after) := by
  obtain ⟨answer, isAnswer⟩ := exists_ok_of_isSome answered
  exact ⟨answer, step.2, Prod.ext isAnswer rfl⟩

theorem exists_error_of_isNone (failed : outcome.toOption.isNone = true) :
    ∃ error, outcome = .error error := by
  cases outcome with
  | error error => exact ⟨error, rfl⟩
  | ok answer => cases failed

/-- An outcome of whose answer something is known is an answer. -/
theorem exists_ok_of_map {view : β → γ} {value : γ}
    (known : outcome.toOption.map view = some value) :
    ∃ answer, outcome = .ok answer ∧ view answer = value := by
  obtain ⟨answer, isAnswer, seen⟩ := Option.map_eq_some_iff.mp known
  exact ⟨answer, toOption_eq_some_iff.mp isAnswer, seen⟩

end Outcomes

namespace Action

variable {σ τ β γ : Type}

/-- The outcome of an action on a state, and the state after it. -/
def on (action : Action σ β) (state : σ) : Except LadderError β × σ := action.run.run state

/-- The answer to a question about the state, which stays as it is. -/
def ask (question : σ → Except LadderError β) : Action σ β := do
  match question (← get) with
  | .ok answer => pure answer
  | .error error => throw error

/-- An outcome that is known already. -/
def settled (outcome : Except LadderError β) : Action σ β := ask fun _ => outcome

/-- An action on one part of the state; the part is put back also when the action fails. -/
def within (part : σ → τ) (put : τ → σ → σ) (action : Action τ β) : Action σ β := do
  let state ← get
  let (outcome, after) := action.on (part state)
  set (put after state)
  settled outcome

/-- An action that is followed by another one, `undo`, if it fails, and fails all the same. -/
def undoing (undo : Action σ Unit) (action : Action σ β) : Action σ β := do
  let (outcome, after) := action.on (← get)
  set after
  match outcome with
  | .ok answer => pure answer
  | .error error => do
      undo
      throw error

/-! ### What actions do to a state -/

@[simp] theorem on_pure (answer : β) (state : σ) :
    (pure answer : Action σ β).on state = (.ok answer, state) := rfl

@[simp] theorem on_throw (error : LadderError) (state : σ) :
    (throw error : Action σ β).on state = (.error error, state) := rfl

@[simp] theorem on_get (state : σ) : (get : Action σ σ).on state = (.ok state, state) := rfl

@[simp] theorem on_set (after state : σ) :
    (set after : Action σ PUnit).on state = (.ok ⟨⟩, after) := rfl

@[simp] theorem on_modify (change : σ → σ) (state : σ) :
    (modify change : Action σ PUnit).on state = (.ok ⟨⟩, change state) := rfl

theorem on_bind (first : Action σ β) (next : β → Action σ γ) (state : σ) :
    (first >>= next).on state =
      match first.on state with
      | (.ok answer, after) => (next answer).on after
      | (.error error, after) => (.error error, after) := by
  have unfolded : (first >>= next).on state =
      (match first.on state with
        | (outcome, after) => (ExceptT.bindCont next outcome).run after) := rfl
  rw [unfolded]
  rcases first.on state with ⟨answer | error, after⟩ <;> rfl

theorem on_bind_of_ok {first : Action σ β} {state after : σ} {answer : β}
    (succeeds : first.on state = (.ok answer, after)) (next : β → Action σ γ) :
    (first >>= next).on state = (next answer).on after := by
  rw [on_bind, succeeds]

theorem on_bind_of_error {first : Action σ β} {state after : σ} {error : LadderError}
    (fails : first.on state = (.error error, after)) (next : β → Action σ γ) :
    (first >>= next).on state = (.error error, after) := by
  rw [on_bind, fails]

theorem on_map (change : β → γ) (action : Action σ β) (state : σ) :
    (change <$> action).on state = ((action.on state).1.map change, (action.on state).2) := by
  rw [← bind_pure_comp, on_bind]
  rcases action.on state with ⟨answer | error, after⟩ <;> rfl

@[simp] theorem on_ask (question : σ → Except LadderError β) (state : σ) :
    (ask question).on state = (question state, state) := by
  unfold ask
  rw [on_bind, on_get]
  dsimp only
  cases question state <;> rfl

theorem on_bind_ask (question : σ → Except LadderError β) (next : β → Action σ γ) (state : σ) :
    (ask question >>= next).on state =
      match question state with
      | .ok answer => (next answer).on state
      | .error error => (.error error, state) := by
  rw [on_bind, on_ask]
  cases question state <;> rfl

@[simp] theorem on_settled (outcome : Except LadderError β) (state : σ) :
    (settled outcome : Action σ β).on state = (outcome, state) := on_ask _ state

@[simp] theorem on_within (part : σ → τ) (put : τ → σ → σ) (action : Action τ β) (state : σ) :
    (within part put action).on state =
      ((action.on (part state)).1, put (action.on (part state)).2 state) := by
  unfold within
  rw [on_bind, on_get]
  dsimp only
  rw [on_bind, on_set]
  exact on_settled _ _

theorem on_undoing_of_ok (undo : Action σ Unit) {action : Action σ β} {state after : σ}
    {answer : β} (succeeds : action.on state = (.ok answer, after)) :
    (undoing undo action).on state = (.ok answer, after) := by
  unfold undoing
  rw [on_bind, on_get]
  dsimp only
  rw [on_bind, on_set, succeeds]
  rfl

theorem on_undoing_of_error {undo : Action σ Unit} {action : Action σ β}
    {state after restored : σ} {error : LadderError}
    (fails : action.on state = (.error error, after))
    (undone : undo.on after = (.ok (), restored)) :
    (undoing undo action).on state = (.error error, restored) := by
  unfold undoing
  rw [on_bind, on_get]
  dsimp only
  rw [on_bind, on_set, fails]
  dsimp only
  rw [on_bind, undone]
  rfl

/-! ### What is known of actions that have succeeded -/

section Succeeded

variable {state final : σ} {answer : γ}

/-- Both steps of a chain that succeeds have succeeded. -/
theorem exists_of_on_bind {first : Action σ β} {next : β → Action σ γ}
    (succeeds : (first >>= next).on state = (.ok answer, final)) :
    ∃ middle between, first.on state = (.ok middle, between) ∧
      (next middle).on between = (.ok answer, final) := by
  rw [on_bind] at succeeds
  rcases steps : first.on state with ⟨error | middle, between⟩
  · rw [steps] at succeeds
    cases succeeds
  · rw [steps] at succeeds
    exact ⟨middle, between, rfl, succeeds⟩

theorem exists_of_on_bind_ask {question : σ → Except LadderError β} {next : β → Action σ γ}
    (succeeds : (ask question >>= next).on state = (.ok answer, final)) :
    ∃ middle, question state = .ok middle ∧ (next middle).on state = (.ok answer, final) := by
  obtain ⟨middle, between, asks, goesOn⟩ := exists_of_on_bind succeeds
  rw [on_ask, Prod.mk.injEq] at asks
  obtain ⟨asked, rfl⟩ := asks
  exact ⟨middle, asked, goesOn⟩

/-- What has not failed has not been undone. -/
theorem on_of_on_undoing {undo : Action σ Unit} {action : Action σ γ}
    (succeeds : (undoing undo action).on state = (.ok answer, final)) :
    action.on state = (.ok answer, final) := by
  unfold undoing at succeeds
  rw [on_bind, on_get] at succeeds
  dsimp only at succeeds
  rw [on_bind, on_set] at succeeds
  dsimp only at succeeds
  rcases outcome : action.on state with ⟨error | own, after⟩
  · rw [outcome] at succeeds
    obtain ⟨_, _, _, fails⟩ := exists_of_on_bind succeeds
    cases fails
  · rw [outcome] at succeeds
    exact succeeds

end Succeeded

end Action
end LadderDiagram
