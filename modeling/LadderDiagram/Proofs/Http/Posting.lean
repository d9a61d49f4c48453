import LadderDiagram.Http.Route
import LadderDiagram.Proofs.Command.RoundTrip

/-!
# Posted texts that cannot be read

A text that is not JSON counts as an object without fields.  Every operation but one asks for a
field, so such a text is refused and the drawing stays as it is.  The one that asks for nothing
adds a rung, and it adds a blank one.
-/

namespace LadderDiagram

/-! ### Arguments without fields -/

/-- Arguments with issues are refused with them, if they could be checked. -/
theorem Operation.read_of_issues {operation : Operation} {arguments? : Option Json}
    (found : (operation.schema arguments?).issues ≠ [])
    (checked : (operation.schema arguments?).issues.any (·.cause == .noText) = false) :
    operation.read arguments? = .error (.issues (operation.schema arguments?).issues) := by
  unfold Operation.read
  generalize operation.schema arguments? = outcome at found checked
  obtain ⟨issues, value⟩ := outcome
  cases issues with
  | nil => exact absurd rfl found
  | cons issue rest =>
      change Except.error (if (issue :: rest).any _ then _ else _) = _
      rw [checked]
      rfl

/-- A rung is added and a layout is shown without any arguments; all else asks for some. -/
theorem Operation.issues_of_no_fields (operation : Operation) :
    operation = .addRung ∨ operation = .layout ∨
      (operation.schema (some (.obj []))).issues.isEmpty = false ∧
        (operation.schema (some (.obj []))).issues.any (·.cause == .noText) = false := by
  cases operation <;> decide +kernel

/-! ### Blank rungs -/

namespace Routine

/-- A source without a text and a comment gives a blank rung, also at the end. -/
theorem insertRung_blank (routine : Routine) :
    (insertRung ⟨none, none⟩ (.ofNat routine.size)).on routine =
      (.ok routine.size, { routine with rungs := routine.rungs ++ [.empty] }) :=
  on_insertRung_size rfl

theorem IsSound.append_blank {routine : Routine} (sound : routine.IsSound) :
    IsSound { routine with rungs := routine.rungs ++ [.empty] } := by
  rcases insertRung_cases ⟨none, none⟩ (.ofNat routine.size) routine with
    ⟨error, _, fails⟩ | ⟨index, rung, nextId, within, _, arises, succeeds⟩
  · cases fails.symm.trans (insertRung_blank routine)
  · have inserted := sound.insertIdx arises within
    rw [(Prod.mk.inj (succeeds.symm.trans (insertRung_blank routine))).2] at inserted
    exact inserted

end Routine

namespace Drawing

variable {α : Type} [Scalar α]

/-- To a drawing of a sound routine a blank rung can be added. -/
theorem exists_addRung_blank {drawing : Drawing α} (sound : drawing.routine.IsSound) :
    ∃ after, drawing.apply (.addRung ⟨none, none⟩ none) = (.ok drawing.routine.size, after) ∧
      after.routine = { drawing.routine with rungs := drawing.routine.rungs ++ [.empty] } := by
  let size := drawing.routine.size
  let added : Drawing α :=
    { drawing with
      routine := { drawing.routine with rungs := drawing.routine.rungs ++ [.empty] }
      bands := drawing.bands.insertIdx size none
      arena := drawing.arena.renumber (openNumber size) }
  obtain ⟨after, relays, sameRoutine⟩ := exists_relay added sound.append_blank (size ≤ ·)
  refine ⟨after, ?_, sameRoutine⟩
  unfold apply act addRung
  rw [Action.on_bind, Action.on_get]
  dsimp only [Option.getD_none]
  rw [Action.on_bind, on_onRoutine, Routine.insertRung_blank]
  dsimp only
  rw [Action.on_bind, Action.on_modify]
  exact Action.on_bind_of_ok relays _

end Drawing

/-- The answer to a blank rung behind all others. -/
def blankRungAdded {α : Type} (drawing : Drawing α) : Response α :=
  .edited (.ofNat drawing.routine.size) Rung.empty.text .nothing

/-- A command to add a blank rung succeeds and is answered with that rung. -/
theorem Command.exists_execute_addRung_blank {α : Type} [Scalar α] {drawing : Drawing α}
    (sound : drawing.routine.IsSound) :
    ∃ after events, (Command.addRung ⟨none, none⟩ none).execute drawing =
        ⟨.ok (blankRungAdded drawing), after, events⟩ ∧
      after.routine = { drawing.routine with rungs := drawing.routine.rungs ++ [.empty] } := by
  obtain ⟨after, adds, sameRoutine⟩ := Drawing.exists_addRung_blank sound
  have shown : after.routine.rungAt (.ofNat drawing.routine.size) =
      .ok (drawing.routine.size, .empty) := by
    apply Routine.rungAt_of_getElem?
    rw [sameRoutine]
    exact List.getElem?_concat_length
  let edit : Edit := .addRung ⟨none, none⟩ none
  let events : List (Event α) :=
    [.log (Editor.successEvent edit.name edit.arguments after.relaid), Editor.layoutEvent after]
  have performed : Editor.perform drawing edit = ⟨.ok drawing.routine.size, after, events⟩ := by
    unfold Editor.perform Editor.performAs
    rw [adds]
    rfl
  refine ⟨after, events, ?_, sameRoutine⟩
  unfold execute make
  dsimp only
  rw [performed]
  dsimp only [Except.bind, showRung]
  rw [shown]
  rfl

/-! ### Requests -/

namespace Http

/-- A request that posts to the path of an operation. -/
structure Posts (request : Request) (operation : Operation) : Prop where
  isPost : request.method.toUpper = "POST"
  leads : ∃ path, operationPath? operation = some path ∧ request.target.path = basePath ++ path

variable {request : Request} {operation : Operation}

/-- The operations have paths of their own. -/
theorem route?_operationPath : ∀ operation ∈ postedOperations, ∀ path ∈ operationPath? operation,
    (postRoutes.find? fun entry => basePath ++ entry.1 == basePath ++ path).map (·.2) =
      some (.operation operation) := by
  decide +kernel

theorem mem_postedOperations {path : String} (isPath : operationPath? operation = some path) :
    operation ∈ postedOperations := by
  cases operation <;> first | decide | cases isPath

/-- What is posted to an operation is read and carried out. -/
theorem Posts.serve_eq (posts : Posts request operation) (drawing : Drawing Float) :
    serve drawing request = carryOutWith drawing operation (bodyJson request.body) := by
  obtain ⟨isPost, path, isPath, leads⟩ := posts
  have route : route? request.method request.target.path = some (.operation operation) := by
    unfold route? isReading
    rw [isPost, leads]
    exact route?_operationPath operation (mem_postedOperations isPath) path isPath
  have responds : respond drawing request =
      carryOutWith drawing operation (bodyJson request.body) := by
    unfold respond
    dsimp only
    rw [route]
  unfold serve
  dsimp only
  rw [isPost, if_neg (by decide), responds]

/-- A request that posts to an operation what is not JSON. -/
structure PostsUnreadable (request : Request) (operation : Operation) : Prop
    extends Posts request operation where
  unreadable : Json.parse?
    (String.ofList (dropByteOrderMark (dropByteOrderMark request.body.toList))) = none

theorem PostsUnreadable.serve_eq (posts : PostsUnreadable request operation)
    (drawing : Drawing Float) :
    serve drawing request = carryOutWith drawing operation (.obj []) := by
  rw [posts.toPosts.serve_eq, bodyJson, posts.unreadable]
  rfl

/-- Where something is asked for, the request is refused and the drawing stays as it is. -/
theorem PostsUnreadable.exists_issues (posts : PostsUnreadable request operation)
    (asks : operation ≠ .addRung) (drawing : Drawing Float) :
    ∃ issues, issues ≠ [] ∧ serve drawing request = ⟨invalidArguments issues, drawing, []⟩ := by
  rw [posts.serve_eq, carryOutWith]
  rcases operation.issues_of_no_fields with adds | shows | ⟨found, checked⟩
  · exact absurd adds asks
  · obtain ⟨path, isPath, _⟩ := posts.leads
    rw [shows] at isPath
    cases isPath
  · have some : (operation.schema (some (.obj []))).issues ≠ [] := by
      intro none
      rw [none] at found
      cases found
    rw [Operation.read_of_issues some checked]
    exact ⟨_, some, rfl⟩

/-- Where nothing is asked for, a blank rung is added. -/
theorem PostsUnreadable.exists_blankRungAdded (posts : PostsUnreadable request .addRung)
    {config : LayoutConfig Float} {drawing : Drawing Float}
    (reachable : Command.Reachable config drawing) :
    ∃ after events,
      serve drawing request = ⟨ok (blankRungAdded drawing).toJson, after, events⟩ ∧
      after.routine = { drawing.routine with rungs := drawing.routine.rungs ++ [.empty] } := by
  obtain ⟨after, events, adds, appended⟩ :=
    Command.exists_execute_addRung_blank reachable.carries.sound
  refine ⟨after, events, ?_, appended⟩
  have read : Operation.addRung.read (some (.obj [])) = .ok (.addRung ⟨none, none⟩ none) := rfl
  rw [posts.serve_eq, carryOutWith, read]
  dsimp only [carryOut]
  rw [adds]

/--
A posted text that is not JSON is refused with issues, and nothing is edited; but where a rung may
be added it adds a blank one at the end, to every drawing that commands lead to.
-/
theorem unreadable_is_refused_or_adds (posts : PostsUnreadable request operation)
    (drawing : Drawing Float) :
    (operation ≠ .addRung → ∃ issues, issues ≠ [] ∧
      serve drawing request = ⟨invalidArguments issues, drawing, []⟩) ∧
    (operation = .addRung → ∀ config, Command.Reachable config drawing → ∃ after events,
      serve drawing request = ⟨ok (blankRungAdded drawing).toJson, after, events⟩ ∧
      after.routine = { drawing.routine with rungs := drawing.routine.rungs ++ [.empty] }) := by
  refine ⟨fun asks => posts.exists_issues asks drawing, ?_⟩
  rintro rfl config reachable
  exact posts.exists_blankRungAdded reachable

theorem toUpper_post : "POST".toUpper = "POST" := by
  change String.map Char.toUpper "POST" = "POST"
  rw [← String.toList_inj, String.toList_map]
  rfl

/-- A request with a text that is cut off behind its first brace. -/
def cutRequest (path : String) : Request := ⟨"POST", ⟨basePath ++ path, []⟩, "\x7b"⟩

theorem postsUnreadable_cutRequest {operation : Operation} {path : String}
    (isPath : operationPath? operation = some path) :
    PostsUnreadable (cutRequest path) operation where
  isPost := toUpper_post
  leads := ⟨path, isPath, rfl⟩
  unreadable := by
    have none : Json.parse?
        (String.ofList (dropByteOrderMark (dropByteOrderMark "\x7b".toList))) = none := by
      decide +kernel
    exact none

theorem unreadable_is_refused_or_adds_of_cutRequest :
    (∃ issues, issues ≠ [] ∧ serve (.blank .standard .empty) (cutRequest "/rungs/remove") =
      ⟨invalidArguments issues, .blank .standard .empty, []⟩) ∧
    ∃ after events, serve (.blank .standard .empty) (cutRequest "/rungs/add") =
      ⟨ok (blankRungAdded (.blank (.standard : LayoutConfig Float) .empty)).toJson, after,
        events⟩ := by
  have removing := unreadable_is_refused_or_adds
    (postsUnreadable_cutRequest (rfl : operationPath? .removeRung = _)) (.blank .standard .empty)
  have adding := unreadable_is_refused_or_adds
    (postsUnreadable_cutRequest (rfl : operationPath? .addRung = _)) (.blank .standard .empty)
  obtain ⟨after, events, serves, _⟩ := adding.2 rfl .standard .new
  exact ⟨removing.1 nofun, after, events, serves⟩

/-- A text that is cut off is not refused, and the routine has a rung more. -/
theorem adds_rung_of_cutRequest :
    PostsUnreadable (cutRequest "/rungs/add") .addRung ∧ (cutRequest "/rungs/add").body ≠ "" ∧
      (serve (.blank .standard .empty) (cutRequest "/rungs/add")).response.status ≠ 400 ∧
      (serve (.blank .standard .empty) (cutRequest "/rungs/add")).drawing.routine ≠ .empty := by
  have posts : PostsUnreadable (cutRequest "/rungs/add") .addRung :=
    postsUnreadable_cutRequest rfl
  obtain ⟨after, events, serves, appended⟩ :=
    posts.exists_blankRungAdded (.new : Command.Reachable .standard (.blank .standard .empty))
  refine ⟨posts, by decide, ?_, ?_⟩
  · rw [serves]
    exact nofun
  · rw [serves]
    dsimp only
    rw [appended]
    intro same
    cases congrArg Routine.size same

end Http
end LadderDiagram
