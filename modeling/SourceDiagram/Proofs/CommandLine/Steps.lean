import SourceDiagram.CommandLine.World

set_option autoImplicit false

namespace SourceDiagram.CommandLine

variable {α β ε : Type} {before between after : World}

-- A step ends with a result in a world, whatever was reported before, and reports some more lines.
def Ends (step : Step (StateM World) α) (before : World) (result : Except RunFault α)
    (after : World) : Prop :=
  ∀ errors, ∃ more,
    step.run.run { before with errors } = (result, { after with errors := errors ++ more })

theorem run_bind (first : Step (StateM World) α) (rest : α → Step (StateM World) β)
    (world : World) :
    (first >>= rest).run.run world =
      match first.run.run world with
      | (.ok value, next) => (rest value).run.run next
      | (.error cause, next) => (.error cause, next) := by
  show (match first.run.run world with
    | (result, next) => ExceptT.bindCont rest result next) = _
  generalize first.run.run world = ran
  obtain ⟨result, next⟩ := ran
  cases result with
  | ok value => rfl
  | error cause => rfl

namespace Ends

theorem pure (value : α) (world : World) : Ends (Pure.pure value) world (.ok value) world :=
  fun errors => ⟨[], by rw [List.append_nil]; rfl⟩

theorem throw (fault : RunFault) (world : World) :
    Ends (MonadExcept.throw fault : Step (StateM World) α) world (.error fault) world :=
  fun errors => ⟨[], by rw [List.append_nil]; rfl⟩

theorem bind {first : Step (StateM World) α} {rest : α → Step (StateM World) β} {value : α}
    {result : Except RunFault β} (head : Ends first before (.ok value) between)
    (tail : Ends (rest value) between result after) :
    Ends (first >>= rest) before result after := by
  intro errors
  obtain ⟨reported, ran⟩ := head errors
  obtain ⟨more, ended⟩ := tail (errors ++ reported)
  refine ⟨reported ++ more, ?_⟩
  rw [run_bind, ran, ← List.append_assoc, ← ended]

theorem fault {first : Step (StateM World) α} {rest : α → Step (StateM World) β}
    {cause : RunFault} (failed : Ends first before (.error cause) after) :
    Ends (first >>= rest) before (.error cause) after := by
  intro errors
  obtain ⟨reported, ran⟩ := failed errors
  exact ⟨reported, by rw [run_bind, ran]⟩

end Ends

theorem say_ends (line : String) (world : World) :
    Ends (say World.host line) world (.ok ()) world :=
  fun _ => ⟨World.linesOf line, rfl⟩

theorem log_ends (filter : Filter) (level : Level) (target text : String) (world : World) :
    Ends (log World.host filter level target text) world (.ok ()) world := by
  rw [log]
  split
  · exact say_ends _ world
  · exact .pure () world

theorem log_events_end (filter : Filter) (events : List Event) (world : World) :
    Ends (logEvents World.host filter events) world (.ok ()) world := by
  induction events with
  | nil => exact .pure () world
  | cons event events ih => exact .bind (log_ends filter .debug _ _ world) ih

theorem asked_ends (name : String) (world : World) :
    Ends (liftM (World.host.environment? name)) world
      (.ok ((world.environment.find? fun entry => entry.1 = name).map Prod.snd)) world :=
  fun errors => ⟨[], by rw [List.append_nil]; rfl⟩

theorem lift_ends (cause : ε → RunFault) {step : StateM World (Except ε α)} (result : Except ε α)
    (ran : ∀ errors, step.run { before with errors } = (result, { after with errors })) :
    Ends (lift cause step) before (result.mapError cause) after := by
  intro errors
  refine ⟨[], ?_⟩
  rw [List.append_nil]
  show (match step { before with errors } with
    | (result, next) => (result.mapError cause, next)) = _
  rw [show step { before with errors } = _ from ran errors]

theorem known_ends (cause : ε → RunFault) (result : Except ε α) (world : World) :
    Ends (lift cause (Pure.pure result)) world (result.mapError cause) world :=
  lift_ends cause result fun _ => rfl

end SourceDiagram.CommandLine
