import Gonitor.Controller.Response

/-!
# The Task Requests

The handlers of `controller/task.go` and `SyncTaskToNode` and `IsLocalTask` of
`controller/agent.go`, line by line.  The queries that only list rows are left out.
-/

namespace Gonitor.Controller

open Gonitor.Model Gonitor.Server AtomicProgram

/-! ## Validation -/

/-- The checks of `validateTaskMutationPayload` that look at one field alone, up to the
    dependency. -/
def payloadFieldError (payload : TaskMutationPayload) : Option String :=
  if payload.name.utf8ByteSize = 0 then some "task name is required"
  else if payload.name.utf8ByteSize > 255 then
    some "task name must be less than 255 characters"
  else if payload.command.utf8ByteSize = 0 then some "command is required"
  else if payload.execType ≠ "cmd" ∧ payload.execType ≠ "http" ∧ payload.execType ≠ "file" then
    some "exec_type must be cmd, http, or file"
  else if payload.priority < 0 ∨ payload.priority > 3 then
    some "priority must be between 0 and 3"
  else if payload.retryTimes < 0 then some "retry_times must be non-negative"
  else if payload.retryInterval < 0 then some "retry_interval must be non-negative"
  else if payload.timeout < 0 then some "timeout must be non-negative"
  else if payload.dependsOnTaskID < 0 then some "depends_on_task_id must be non-negative"
  else none

/-- The checks that come after the dependency: the schedule and the two scripts. -/
def payloadScriptError (ext : Externals) (payload : TaskMutationPayload) : Option String :=
  if ¬ ext.parseSchedule payload.schedule then some "schedule format error"
  else if payload.assert.utf8ByteSize > 0 ∧ ¬ ext.acceptsScript payload.assert then
    some "JS断言代码有错误"
  else if payload.resultHandler.utf8ByteSize > 0 ∧ ¬ ext.acceptsScript payload.resultHandler then
    some "结果handler JS代码有错误"
  else none

/-- `validateTaskMutationPayload`: the text of the error, if there is one. -/
def validateTaskMutationPayload (ext : Externals) (taskID : Int) (payload : TaskMutationPayload) :
    Program (Option String) :=
  match payloadFieldError payload with
  | some err => pure (some err)
  | none =>
    if payload.dependsOnTaskID > 0 then
      -- `AddTask` passes the id 0: a task that is not there yet cannot be meant
      if taskID > 0 ∧ payload.dependsOnTaskID = taskID then
        pure (some "task dependency cannot reference itself")
      else do
        match ← findTask payload.dependsOnTaskID with
        | .error _ => pure (some "depends_on_task_id is invalid")
        | .ok _ => pure (payloadScriptError ext payload)
    else pure (payloadScriptError ext payload)

/-- The assignments from a payload to a task, the same in `AddTask` (to a zero `model.Task`)
    and in `EditTask` (to the row just read). -/
def TaskMutationPayload.apply (payload : TaskMutationPayload) (t : Task) : Task where
  toStamps := t.toStamps
  name := payload.name
  description := payload.description
  command := payload.command
  schedule := payload.schedule
  execType := payload.execType
  isDisable := payload.isDisable
  priority := payload.priority
  tags := payload.tags
  execStrategy := payload.execStrategy
  retryTimes := payload.retryTimes
  retryInterval := payload.retryInterval
  timeout := payload.timeout
  dependsOnTaskID := payload.dependsOnTaskID
  assert := payload.assert
  resultHandler := payload.resultHandler
  nodeID := payload.nodeID

/-! ## Placement -/

/-- `SyncTaskToNode`: here a node that cannot be found is an error. -/
def syncTaskToNode (taskId : Int) : Program (Except String Unit) := do
  match ← findTask taskId with
  | .error err => pure (.error err.text)
  | .ok taskModel =>
    if taskModel.nodeID = 0 then Gonitor.Task.addTask taskId
    else do
      match ← findNode .syncTaskToNode taskModel.nodeID with
      | .error err => pure (.error err.text)
      | .ok nodeModel =>
        if nodeModel.isMaster then Gonitor.Task.addTask taskId
        else
          -- an agent fetches its tasks itself
          pure (.ok ())

/-- `IsLocalTask` of `package controller`. -/
def isLocalTask (taskModel : Task) : Program Bool :=
  if taskModel.nodeID = 0 then pure true
  else do
    match ← findNode .controllerIsLocalTask taskModel.nodeID with
    | .error _ => pure true
    | .ok nodeModel => pure nodeModel.isMaster

/-! ## Handlers -/

/-- `AddTask` -/
def addTask (ext : Externals) (caller : Caller) (body : Except String TaskMutationPayload) :
    Program Reply :=
  match body with
  | .error err => pure (.response (error ErrorCode.PARSE_PARAMS_ERROR ("parse fail:" ++ err)))
  | .ok addInfo => do
    match ← validateTaskMutationPayload ext 0 addInfo with
    | some err => pure (.response (error ErrorCode.PARSE_PARAMS_ERROR err))
    | none => do
      match ← createTask (addInfo.apply { toStamps := Base.zero }) with
      | .error _ => pure (.response (error ErrorCode.DB_ERROR "insert fail"))
      | .ok taskModel => do
        match ← syncTaskToNode taskModel.id with
        | .error _ =>
          -- a success without an audit entry: the row is there, and stays
          pure (.response
            (success "add to databases success, but task start fail" (.payload addInfo)))
        | .ok _ => do
          logTaskOperation caller taskModel "AddTask"
          pure (.response (success "add success" (.payload addInfo)))

/-- The last lines of `EditTask`. -/
def editTaskDone (caller : Caller) (taskModel : Task) (editInfo : TaskMutationPayload) :
    Program Reply := do
  logTaskOperation caller taskModel "EditTask"
  pure (.response (success "update success" (.payload editInfo)))

/-- `EditTask` -/
def editTask (ext : Externals) (caller : Caller) (taskId : Int)
    (body : Except String TaskMutationPayload) : Program Reply :=
  match body with
  | .error err => pure (.response (error ErrorCode.PARSE_PARAMS_ERROR ("parse fail:" ++ err)))
  | .ok editInfo => do
    match ← findTask taskId with
    | .error _ => pure (.response (error ErrorCode.NOT_FOUND "invalid task id"))
    | .ok taskModel => do
      match ← validateTaskMutationPayload ext taskModel.id editInfo with
      | some err => pure (.response (error ErrorCode.PARSE_PARAMS_ERROR err))
      | none => do
        let taskModel := editInfo.apply taskModel
        match ← saveTask taskModel with
        | .error _ => pure (.response (error ErrorCode.DB_ERROR "update fail"))
        | .ok _ => do
          -- the old schedule goes in any case; only a local and enabled task gets the new one
          Gonitor.Task.deleteTask taskModel.id
          let isLocal ← isLocalTask taskModel
          if isLocal ∧ ¬ taskModel.isDisable then do
            match ← Gonitor.Task.addTask taskModel.id with
            | .error _ =>
              pure (.response
                (success "update success, but task update fail" (.payload editInfo)))
            | .ok _ => editTaskDone caller taskModel editInfo
          else editTaskDone caller taskModel editInfo

/-- `DeleteTask` -/
def deleteTask (caller : Caller) (taskId : Int) : Program Reply := do
  match ← findTask taskId with
  | .error _ => pure (.response (error ErrorCode.NOT_FOUND "invalid task id"))
  | .ok taskModel => do
    match ← deleteTaskRow taskModel.id with
    | .error _ => pure (.response (error ErrorCode.DB_ERROR "delete task fail"))
    | .ok _ => do
      -- the task stays in `TaskList` and in cron
      logTaskOperation caller taskModel "DeleteTask"
      pure (.response (success "delete success" (.task taskModel)))

/-- `StopTask`; a failing save is only logged. -/
def stopTask (caller : Caller) (taskId : Int) : Program Reply := do
  match ← findTask taskId with
  | .error _ => pure (.response (error ErrorCode.NOT_FOUND "not found task"))
  | .ok taskModel => do
    -- the schedule is left before the row says so
    Gonitor.Task.deleteTask taskId
    let taskModel := { taskModel with isDisable := true }
    let _ ← saveTask taskModel
    logTaskOperation caller taskModel "StopTask"
    pure (.response (success "success" .nil))

/-- `StartTask` -/
def startTask (caller : Caller) (taskId : Int) : Program Reply := do
  match ← findTask taskId with
  | .error _ => pure (.response (error ErrorCode.NOT_FOUND "not found task"))
  | .ok taskModel => do
    let taskModel := { taskModel with isDisable := false }
    match ← saveTask taskModel with
    | .error _ => pure (.response (error ErrorCode.NOT_FOUND "change task state fail"))
    | .ok _ => do
      -- the row is enabled by now, and stays so if the task cannot be scheduled
      match ← Gonitor.Task.addTask taskId with
      | .error _ => pure (.response (error 10002 "add task fail"))
      | .ok _ => do
        logTaskOperation caller taskModel "StartTask"
        pure (.response (success "start success" .nil))

/-- `StartOnceTask` -/
def startOnceTask (ext : Externals) (caller : Caller) (taskId : Int) : Program Reply := do
  match ← findTask taskId with
  | .error _ => pure (.response (error ErrorCode.NOT_FOUND "not found task"))
  | .ok taskModel => do
    match ← Gonitor.Task.startOnceTask ext taskId with
    | .panicked => pure .panicked
    | .returned output (some err) =>
      pure (.response (error 215456 ("exec fail " ++ err ++ "\n" ++ output)))
    | .returned output none => do
      logTaskOperation caller taskModel "TestTask"
      pure (.response (success "success" (.output output)))

end Gonitor.Controller
