import Gonitor.Server.Operations

/-!
# The Task Manager

`package task`: scheduling a task with cron and taking it off again
(`task.go`, `taskIns.go`).  An instance is scheduled by `taskInstance.start` and taken off
by `taskInstance.stop`; neither holds a lock, so the operations of several requests can
interleave between any two lines.

`UpdateTask` is called nowhere and is left out, as are the pushes to the browsers.
-/

namespace Gonitor.Task

open Gonitor.Model Gonitor.Server AtomicProgram

/-! ## Instances -/

/-- `getTaskChain`: the strategies are numbered 0 (parallel), 1 (skip) and 2 (delay). -/
def getTaskChain (taskInfo : Task) : Chain :=
  if taskInfo.execStrategy = 2 then .delayIfStillRunning
  else if taskInfo.execStrategy = 1 then .skipIfStillRunning
  else .recover

/-- The job that `taskInstance.start` hands to cron. -/
def wrappedJob (taskInfo : Task) : WrappedJob := ⟨getTaskChain taskInfo, taskInfo⟩

/-- `taskInstance.start`, for the instance of `taskInfo` that `AddTask` has just made. -/
def startInstance (taskID : Int) (taskInfo : Task) : Program (Except String Unit) := do
  match ← cronAddJob taskInfo.schedule (wrappedJob taskInfo) with
  | .error err => pure (.error err)
  | .ok entryID => do
    taskListPut taskInfo.id ⟨taskID, taskInfo, entryID⟩
    pure (.ok ())

/-- `for _, runningIns := range ti.RunningInstances { runningIns.stop() }` -/
def stopEach (e : EntryID) : List Int → Program Unit
  | [] => pure ()
  | log :: logs => do
    stopRunning e log
    stopEach e logs

/-- `taskInstance.stop` -/
def stopInstance (ti : TaskInstance) : Program Unit := do
  -- a run that the scheduler has started already goes on, unless it is registered
  cronRemove ti.entryId
  let logs ← runningInstances ti.entryId
  stopEach ti.entryId logs
  taskListDelete ti.taskInfo.id

/-! ## The manager -/

/-- `isLocalTask` of `package task`: a node that cannot be found counts as the master. -/
def isLocalTask (t : Task) : Program Bool :=
  if t.nodeID = 0 then pure true
  else do
    match ← findNode .managerIsLocalTask t.nodeID with
    | .error _ => pure true
    | .ok node => pure node.isMaster

/-- `Manager.AddTask` -/
def addTask (taskId : Int) : Program (Except String Unit) := do
  -- the look and the insertion by `start` are two steps: two requests can both find no entry
  match ← taskListGet taskId with
  | some _ => pure (.error "this task has in cron task")
  | none => do
    match ← findTask taskId with
    | .error err => pure (.error err.text)
    | .ok task =>
      -- a task that is not to run here is no error
      if task.isDisable then pure (.ok ())
      else do
        if ← isLocalTask task then startInstance taskId task
        else pure (.ok ())

/-- `Manager.DeleteTask` -/
def deleteTask (taskId : Int) : Program Unit := do
  match ← taskListGet taskId with
  | none => pure ()
  | some taskIns => do
    -- `stop` deletes the entry under the id of its task, this line under the id of the request
    stopInstance taskIns
    taskListDelete taskId

/-- The loop of `Manager.Start`; a task that cannot be added is passed over. -/
def addTasks : List Task → Program Unit
  | [] => pure ()
  | taskItem :: taskList => do
    let _ ← addTask taskItem.id
    addTasks taskList

/-- `Manager.Start`, up to `cron.Start`: it panics when the tasks cannot be read. -/
def start : Program Unit := do
  match ← enabledTasks with
  -- in the process of the server: nothing recovers this panic
  | .error _ => crash
  | .ok taskList => addTasks taskList

/-- The loop of `Manager.Stop`: a key that has left `TaskList` before its turn is skipped. -/
def stopTasks : List Int → Program Unit
  | [] => pure ()
  | taskId :: taskIds => do
    match ← taskListGet taskId with
    | none => stopTasks taskIds
    | some taskIns => do
      stopInstance taskIns
      stopTasks taskIds

/-- `Manager.Stop` -/
def stop : Program Unit := do
  let taskIds ← taskListKeys
  stopTasks taskIds

end Gonitor.Task
