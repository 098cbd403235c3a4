import Gonitor.Controller.Task

/-!
# Importing Tasks

`importTaskItems` and `ImportTasks` of `controller/task_transfer.go`.  All inserts happen in
one transaction; every failure rolls it back.
-/

namespace Gonitor.Controller

open Gonitor.Model Gonitor.Server AtomicProgram

/-- The ids given to the imported tasks, by the ids they had. -/
abbrev OldToNew := AList (fun _ : Int => Int)

/-- `exportTaskItems`, for one task. -/
def exportTaskItem (t : Task) : TaskTransferItem where
  id := t.id
  name := t.name
  description := t.description
  command := t.command
  schedule := t.schedule
  execType := t.execType
  isDisable := t.isDisable
  priority := t.priority
  tags := t.tags
  execStrategy := t.execStrategy
  retryTimes := t.retryTimes
  retryInterval := t.retryInterval
  timeout := t.timeout
  dependsOnTaskID := t.dependsOnTaskID
  assert := t.assert
  resultHandler := t.resultHandler
  nodeID := t.nodeID

/-- The payload that stands for an item: disabled, and without its dependency. -/
def TaskTransferItem.payload (item : TaskTransferItem) : TaskMutationPayload :=
  { item.toTaskMutationPayload with isDisable := true, dependsOnTaskID := 0 }

/-- Leave `importTaskItems` with an error, after `tx.Rollback`. -/
def rollbackWith {α : Type} (err : String) : Program (Except String α) := do
  rollbackTx
  pure (.error err)

/-- The first loop: insert one task for each item. -/
def insertItems (ext : Externals) :
    List TaskTransferItem → OldToNew → List Task → Program (Except String (OldToNew × List Task))
  | [], oldToNew, createdTasks => pure (.ok (oldToNew, createdTasks))
  | item :: items, oldToNew, createdTasks => do
    match ← validateTaskMutationPayload ext 0 item.payload with
    | some err => rollbackWith err
    | none => do
      match ← createTask (item.payload.apply { toStamps := Base.zero }) with
      | .error err => rollbackWith err.text
      | .ok taskModel =>
        insertItems ext items
          (if item.id > 0 then oldToNew.insert item.id taskModel.id else oldToNew)
          (createdTasks ++ [taskModel])

/-- The dependency an item gets: the id its dependency was given, or the id of a task that
    exists already. -/
def resolveDependency (oldToNew : OldToNew) (dependsOnTaskID : Int) :
    Program (Option Int) :=
  match oldToNew.lookup dependsOnTaskID with
  | some mappedID => pure (some mappedID)
  | none => do
    match ← findTask dependsOnTaskID with
    | .error _ => pure none
    | .ok _ => pure (some dependsOnTaskID)

/-- The second loop: the dependencies. -/
def linkItems (oldToNew : OldToNew) :
    List (TaskTransferItem × Task) → Program (Except String (List Task))
  | [] => pure (.ok [])
  | (item, created) :: rest =>
    if item.dependsOnTaskID = 0 then do
      let tasks ← linkItems oldToNew rest
      pure (tasks.map (created :: ·))
    else do
      match ← resolveDependency oldToNew item.dependsOnTaskID with
      | none => rollbackWith "depends_on_task_id is invalid"
      | some dependencyID =>
        if dependencyID = created.id then rollbackWith "task dependency cannot reference itself"
        else do
          let created := { created with dependsOnTaskID := dependencyID }
          match ← saveTask created with
          | .error err => rollbackWith err.text
          | .ok _ => do
            let tasks ← linkItems oldToNew rest
            pure (tasks.map (created :: ·))

/-- `importTaskItems` -/
def importTaskItems (ext : Externals) (items : List TaskTransferItem) :
    Program (Except String (List Task)) := do
  match ← beginTx with
  | .error err => pure (.error err.text)
  | .ok _ => do
    -- each loop has rolled the transaction back when it answers an error
    match ← insertItems ext items ∅ [] with
    | .error err => pure (.error err)
    | .ok (oldToNew, createdTasks) => do
      match ← linkItems oldToNew (items.zip createdTasks) with
      | .error err => pure (.error err)
      | .ok tasks => do
        match ← commitTx with
        | .error err => pure (.error err.text)
        | .ok _ => pure (.ok tasks)

/-- `ImportTasks` -/
def importTasks (ext : Externals) (body : Except String (List TaskTransferItem)) : Program Reply :=
  match body with
  | .error err => pure (.response (error ErrorCode.PARSE_PARAMS_ERROR ("parse fail:" ++ err)))
  | .ok tasks =>
    if tasks.isEmpty then
      pure (.response (error ErrorCode.PARSE_PARAMS_ERROR "tasks is required"))
    else do
      match ← importTaskItems ext tasks with
      | .error err => pure (.response (error ErrorCode.PARSE_PARAMS_ERROR err))
      | .ok createdTasks =>
        pure (.response (success "success" (.imported (createdTasks.map exportTaskItem))))

end Gonitor.Controller
