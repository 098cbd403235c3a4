import Gonitor.Requests.Guarantees

/-!
# How the Task Table Changes

Six handlers write the task table, three of them whole rows that they have read before.  What
they write comes down to a few kinds of change (`TaskChange`): an accepted payload is inserted,
a live row is saved with some columns replaced, or a row is deleted.

## Main Results

- `validateTaskMutationPayload_spec`: what the validation accepts.
-/

namespace Gonitor.Integrity

open Gonitor.Model Gonitor.Server Gonitor.Controller Gonitor.Requests AtomicProgram SoftDelete

/-! ## What the validation accepts -/

/-- `validateTaskMutationPayload` has no objection to the payload, for the task `taskID` (0 for a
    new task), where the task table is `tasks`. -/
structure Accepted (ext : Externals) (tasks : Table Task) (taskID : Int)
    (payload : TaskMutationPayload) : Prop where
  fields : payloadFieldError payload = none
  scripts : payloadScriptError ext payload = none
  dependency : payload.dependsOnTaskID > 0 →
    ¬ (taskID > 0 ∧ payload.dependsOnTaskID = taskID) ∧
      ∃ row, tasks.byId payload.dependsOnTaskID = some row

/-- A chain of checks has no objection if none of them has. -/
theorem check_eq_none {c : Prop} [Decidable c] {err : String} {rest : Option String} :
    (if c then some err else rest) = none ↔ ¬ c ∧ rest = none := by
  by_cases h : c <;> simp [h]

/-- All that the checks on single fields tell. -/
theorem payloadFieldError_eq_none {payload : TaskMutationPayload} :
    payloadFieldError payload = none ↔
      (1 ≤ payload.name.utf8ByteSize ∧ payload.name.utf8ByteSize ≤ 255) ∧
      payload.command.utf8ByteSize ≠ 0 ∧
      (payload.execType = "cmd" ∨ payload.execType = "http" ∨ payload.execType = "file") ∧
      (0 ≤ payload.priority ∧ payload.priority ≤ 3) ∧
      0 ≤ payload.retryTimes ∧ 0 ≤ payload.retryInterval ∧ 0 ≤ payload.timeout ∧
      0 ≤ payload.dependsOnTaskID := by
  simp only [payloadFieldError, check_eq_none, not_or, not_and, not_lt, gt_iff_lt,
    Int8.not_lt, Int64.not_lt]
  constructor
  · rintro ⟨hname, hlong, hcommand, htype, hprio, htimes, hinterval, htimeout, hdep, -⟩
    refine ⟨⟨by omega, hlong⟩, hcommand, ?_, hprio, htimes, hinterval, htimeout, hdep⟩
    by_contra hother
    simp only [not_or] at hother
    exact htype hother.1 hother.2.1 hother.2.2
  · rintro ⟨⟨hname, hlong⟩, hcommand, htype, hprio, htimes, hinterval, htimeout, hdep⟩
    refine ⟨by omega, hlong, hcommand, ?_, hprio, htimes, hinterval, htimeout, hdep, trivial⟩
    intro hcmd hhttp hfile
    rcases htype with h | h | h
    · exact hcmd h
    · exact hhttp h
    · exact hfile h

/-- All that the checks on the schedule and the scripts tell. -/
theorem payloadScriptError_eq_none {ext : Externals} {payload : TaskMutationPayload} :
    payloadScriptError ext payload = none ↔ ext.parseSchedule payload.schedule = true ∧
      (payload.assert.utf8ByteSize > 0 → ext.acceptsScript payload.assert = true) ∧
      (payload.resultHandler.utf8ByteSize > 0 →
        ext.acceptsScript payload.resultHandler = true) := by
  simp only [payloadScriptError, check_eq_none, not_and, not_not, and_true]

section Validation

variable {ext : Externals} {K : State → Op → Choice → Prop}

/-- The validation only reads, and objects to nothing but what is not acceptable, unless the
    database fails. -/
theorem validateTaskMutationPayload_spec (taskID : Int) (payload : TaskMutationPayload)
    (s : State) :
    Ensures ext K (validateTaskMutationPayload ext taskID payload) (fun r s' =>
      s'.view = s.view ∧ (r = none → Accepted ext s.view.tasks taskID payload) ∧
      (r ≠ none → NoDbFailure K → ¬ Accepted ext s.view.tasks taskID payload)) s := by
  unfold validateTaskMutationPayload
  cases hfields : payloadFieldError payload with
  | some err =>
    refine Ensures.pure ⟨rfl, nofun, fun _ _ haccepted => ?_⟩
    rw [haccepted.fields] at hfields
    cases hfields
  | none =>
    dsimp only
    split
    · rename_i hdep
      split
      · rename_i hself
        refine Ensures.pure ⟨rfl, nofun, fun _ _ haccepted => ?_⟩
        exact (haccepted.dependency hdep).1 hself
      · rename_i hself
        refine (findTask_spec payload.dependsOnTaskID s).bind ?_
        rintro r s' ⟨hview, hrow, hnone⟩
        cases r with
        | error err =>
          refine Ensures.pure ⟨hview, nofun, fun _ hsure haccepted => ?_⟩
          obtain ⟨row, hrow⟩ := (haccepted.dependency hdep).2
          rw [hnone err rfl hsure] at hrow
          cases hrow
        | ok row =>
          refine Ensures.pure ⟨hview, fun hscripts => ?_, fun hscripts _ haccepted => ?_⟩
          · exact ⟨hfields, hscripts, fun _ => ⟨hself, row, hrow row rfl⟩⟩
          · exact hscripts haccepted.scripts
    · rename_i hdep
      refine Ensures.pure ⟨rfl, fun hscripts => ?_, fun hscripts _ haccepted => ?_⟩
      · exact ⟨hfields, hscripts, fun h => absurd h hdep⟩
      · exact hscripts haccepted.scripts

end Validation

/-! ## Kinds of change -/

/-- What a handler makes of a live row before it saves it: `EditTask` applies an accepted payload,
    `StopTask` and `StartTask` set the switch, `ImportTasks` sets the dependency. -/
inductive Rewritten (ext : Externals) (tasks : Table Task) (row : Task) : Task → Prop
  | edited {payload : TaskMutationPayload} : Accepted ext tasks row.id payload →
      Rewritten ext tasks row (payload.apply row)
  | switched (isDisable : Bool) : Rewritten ext tasks row { row with isDisable := isDisable }
  | linked {dependencyID : Int} {dependency : Task} : tasks.byId dependencyID = some dependency →
      dependencyID ≠ row.id →
      Rewritten ext tasks row { row with dependsOnTaskID := dependencyID }

/-- A step performs the operation in some state with these tables. -/
def PerformsOn (K : State → Op → Choice → Prop) (nodes : Table Node) (tasks : Table Task)
    (o : DbOp) : Prop :=
  ∃ s, s.view.nodes = nodes ∧ s.view.tasks = tasks ∧ Performs K s (.db o)

/-- One change of the task table, while the node table is `nodes`. -/
inductive TaskChange (ext : Externals) (K : State → Op → Choice → Prop) (nodes : Table Node)
    (tasks : Table Task) : Table Task → Prop
  | created {payload : TaskMutationPayload} {now : Time} : Accepted ext tasks 0 payload →
      PerformsOn K nodes tasks (.createTask (payload.apply { toStamps := Base.zero })) →
      TaskChange ext K nodes tasks
        (tasks.create (payload.apply { toStamps := Base.zero }).withDefaults now)
  | saved {row row' : Task} {now : Time} {tasks' : Table Task} :
      tasks.byId row.id = some row → Rewritten ext tasks row row' →
      PerformsOn K nodes tasks (.saveTask row') → tasks.save row' now = some tasks' →
      TaskChange ext K nodes tasks tasks'
  | deleted {id : Int} {now : Time} : PerformsOn K nodes tasks (.deleteTask id) →
      TaskChange ext K nodes tasks (tasks.delete id now)

/-- Any number of changes. -/
def TaskChanges (ext : Externals) (K : State → Op → Choice → Prop) (nodes : Table Node) :
    Table Task → Table Task → Prop :=
  Relation.ReflTransGen (TaskChange ext K nodes)

/-- What one change keeps, any number of changes keep. -/
theorem TaskChanges.invariant {ext : Externals} {K : State → Op → Choice → Prop}
    {nodes : Table Node} {tasks tasks' : Table Task} {P : Table Task → Prop}
    (hstep : ∀ t t', P t → TaskChange ext K nodes t t' → P t') (htasks : P tasks)
    (h : TaskChanges ext K nodes tasks tasks') : P tasks' := by
  induction h with
  | refl => exact htasks
  | tail _ hone ih => exact hstep _ _ ih hone

end Gonitor.Integrity
