import Gonitor.Requests.Footprints

/-!
# Who Writes Which Table

The functions of `package task` and the runs write neither tasks nor nodes; the task requests
write no nodes; the requests about nodes and users and those of the agents write no tasks.
-/

namespace Gonitor.Requests

open Gonitor.Model Gonitor.Server Gonitor.Controller AtomicProgram

/-- The operation writes no task. -/
def KeepsTasks : Op → Prop
  | .db (.createTask _) | .db (.saveTask _) | .db (.deleteTask _) => False
  | .db .beginTx | .db .commitTx | .db .rollbackTx => False
  | _ => True

/-- The operation writes no node. -/
def KeepsNodes : Op → Prop
  | .db (.createNode _) | .db (.saveNode _) | .db (.deleteNode _) => False
  | _ => True

/-- It writes neither. -/
def KeepsBoth : Op → Prop
  | .db (.createNode _) | .db (.saveNode _) | .db (.deleteNode _) => False
  | o => KeepsTasks o

theorem keepsTasks_of_both (o : Op) (h : KeepsBoth o) : KeepsTasks o := by
  unfold KeepsBoth at h
  split at h
  case h_4 => exact h
  all_goals exact h.elim

theorem keepsNodes_of_both (o : Op) (h : KeepsBoth o) : KeepsNodes o := by
  unfold KeepsNodes
  split
  case h_4 => trivial
  all_goals exact h

theorem keepsBoth_of_plain (o : Op) (h : Plain o) : KeepsBoth o := by
  unfold Plain at h
  split at h
  case h_15 => exact h.elim
  all_goals trivial

theorem keepsTasks_of_nodeWork (o : Op) (h : NodeWork o) : KeepsTasks o := by
  unfold NodeWork at h
  split at h
  case h_4 => exact keepsTasks_of_both o (keepsBoth_of_plain o h)
  all_goals trivial

theorem keepsTasks_of_sideWork (o : Op) (h : SideWork o) : KeepsTasks o := by
  unfold SideWork at h
  split at h
  case h_8 => exact keepsTasks_of_nodeWork o h
  all_goals trivial

theorem keepsBoth_of_accountWork (o : Op) (h : AccountWork o) : KeepsBoth o := by
  unfold AccountWork at h
  split at h
  case h_6 => exact keepsBoth_of_plain o h
  all_goals trivial

section Manager

theorem plain_keepsBoth {α : Type} {p : Program α} (hp : p.Uses Plain) : p.Uses KeepsBoth :=
  hp.mono keepsBoth_of_plain

/-- What `Manager.AddTask` and `Manager.DeleteTask` do: work on the schedule and two lookups. -/
def ManagerWork : Op → Prop
  | .sched _ | .db (.findTask _) | .db (.findNode _ _) => True
  | _ => False

theorem keepsBoth_of_managerWork (o : Op) (h : ManagerWork o) : KeepsBoth o := by
  unfold ManagerWork at h
  split at h
  case h_4 => exact h.elim
  all_goals trivial

theorem keepsBoth_of_usesManagerWork {α : Type} {p : Program α} (hp : p.Uses ManagerWork) :
    p.Uses KeepsBoth := hp.mono keepsBoth_of_managerWork

/-- What taking an instance off the schedule does. -/
def StopWork : Op → Prop
  | .sched (.taskListGet _) | .sched .taskListKeys | .sched (.taskListDelete _) => True
  | .sched (.cronRemove _) | .sched (.runningInstances _) | .sched (.stopRunning _ _) => True
  | _ => False

theorem managerWork_of_stopWork (o : Op) (h : StopWork o) : ManagerWork o := by
  unfold StopWork at h
  split at h
  case h_7 => exact h.elim
  all_goals trivial

theorem keepsBoth_of_usesStopWork {α : Type} {p : Program α} (hp : p.Uses StopWork) :
    p.Uses KeepsBoth := keepsBoth_of_usesManagerWork (hp.mono managerWork_of_stopWork)

theorem startInstance_managerWork (taskId : Int) (row : Task) :
    (Gonitor.Task.startInstance taskId row).Uses ManagerWork := by
  refine Prog.Uses.call_bind trivial fun r => ?_
  cases r with
  | error err => trivial
  | ok entryId => exact Prog.Uses.call_bind trivial fun _ => trivial

theorem stopEach_stopWork (e : EntryID) (logs : List Int) :
    (Gonitor.Task.stopEach e logs).Uses StopWork := by
  induction logs with
  | nil => trivial
  | cons log logs ih => exact Prog.Uses.call_bind trivial fun _ => ih

theorem stopInstance_stopWork (ti : TaskInstance) :
    (Gonitor.Task.stopInstance ti).Uses StopWork := by
  refine Prog.Uses.call_bind trivial fun _ => ?_
  refine Prog.Uses.call_bind trivial fun logs => ?_
  apply (stopEach_stopWork ti.entryId logs).bind
  intro _
  exact ⟨trivial, fun _ => trivial⟩

theorem managerAddTask_managerWork (taskId : Int) :
    (Gonitor.Task.addTask taskId).Uses ManagerWork := by
  refine Prog.Uses.call_bind trivial fun r => ?_
  cases r with
  | some ti => trivial
  | none =>
    refine Prog.Uses.call_bind trivial fun r => ?_
    cases r with
    | error err => trivial
    | ok row =>
      have hlocal : (Gonitor.Task.isLocalTask row).Uses ManagerWork := by
        unfold Gonitor.Task.isLocalTask
        split
        · trivial
        · refine Prog.Uses.call_bind trivial fun r => ?_
          cases r <;> trivial
      dsimp only
      split
      · trivial
      · apply hlocal.bind
        intro isLocal
        split
        · exact startInstance_managerWork taskId row
        · trivial

theorem managerDeleteTask_stopWork (taskId : Int) :
    (Gonitor.Task.deleteTask taskId).Uses StopWork := by
  refine Prog.Uses.call_bind trivial fun r => ?_
  cases r with
  | none => trivial
  | some ti =>
    apply (stopInstance_stopWork ti).bind
    intro _
    exact ⟨trivial, fun _ => trivial⟩

theorem managerStop_stopWork : Gonitor.Task.stop.Uses StopWork := by
  refine Prog.Uses.call_bind trivial fun taskIds => ?_
  induction taskIds with
  | nil => trivial
  | cons taskId taskIds ih =>
    refine Prog.Uses.call_bind trivial fun r => ?_
    cases r with
    | none => exact ih
    | some ti => exact (stopInstance_stopWork ti).bind fun _ => ih

theorem managerAddTask_keepsBoth (taskId : Int) :
    (Gonitor.Task.addTask taskId).Uses KeepsBoth :=
  keepsBoth_of_usesManagerWork (managerAddTask_managerWork taskId)

theorem managerDeleteTask_keepsBoth (taskId : Int) :
    (Gonitor.Task.deleteTask taskId).Uses KeepsBoth :=
  keepsBoth_of_usesStopWork (managerDeleteTask_stopWork taskId)

/-- What `Manager.Start` does: it reads the enabled tasks and adds each, or it panics. -/
def StartWork : Op → Prop
  | .db .enabledTasks | .run .crash => True
  | o => ManagerWork o

theorem startWork_of_managerWork (o : Op) (h : ManagerWork o) : StartWork o := by
  unfold StartWork
  split
  case h_3 => exact h
  all_goals trivial

theorem keepsBoth_of_startWork (o : Op) (h : StartWork o) : KeepsBoth o := by
  unfold StartWork at h
  split at h
  case h_3 => exact keepsBoth_of_managerWork o h
  all_goals trivial

theorem addTasks_startWork (taskList : List Task) :
    (Gonitor.Task.addTasks taskList).Uses StartWork := by
  induction taskList with
  | nil => trivial
  | cons taskItem taskList ih =>
    apply ((managerAddTask_managerWork taskItem.id).mono startWork_of_managerWork).bind
    intro _
    exact ih

theorem start_startWork : Gonitor.Task.start.Uses StartWork := by
  refine Prog.Uses.call_bind trivial fun r => ?_
  cases r with
  | error err => exact ⟨trivial, fun _ => trivial⟩
  | ok taskList => exact addTasks_startWork taskList

theorem validate_managerWork (ext : Externals) (taskID : Int) (payload : TaskMutationPayload) :
    (validateTaskMutationPayload ext taskID payload).Uses ManagerWork := by
  unfold validateTaskMutationPayload
  split
  · trivial
  · split
    · split
      · trivial
      · refine Prog.Uses.call_bind trivial fun r => ?_
        cases r <;> trivial
    · trivial

theorem isLocalTask_managerWork (t : Task) : (Controller.isLocalTask t).Uses ManagerWork := by
  unfold Controller.isLocalTask
  split
  · trivial
  · refine Prog.Uses.call_bind trivial fun r => ?_
    cases r <;> trivial

theorem syncTaskToNode_managerWork (taskId : Int) :
    (syncTaskToNode taskId).Uses ManagerWork := by
  refine Prog.Uses.call_bind trivial fun r => ?_
  cases r with
  | error err => trivial
  | ok taskModel =>
    dsimp only
    split
    · exact managerAddTask_managerWork taskId
    · refine Prog.Uses.call_bind trivial fun r => ?_
      cases r with
      | error err => trivial
      | ok nodeModel =>
        dsimp only
        split
        · exact managerAddTask_managerWork taskId
        · trivial

theorem syncTaskToNode_keepsBoth (taskId : Int) : (syncTaskToNode taskId).Uses KeepsBoth :=
  keepsBoth_of_usesManagerWork (syncTaskToNode_managerWork taskId)

end Manager

section Runs

variable {ext : Externals}

/-- What a run does: operations of its own, plain ones, and writes of its log row. -/
def RunWork : Op → Prop
  | .run _ | .db (.createTaskLog _) | .db (.saveTaskLog _) => True
  | o => Plain o

theorem runWork_of_plain (o : Op) (h : Plain o) : RunWork o := by
  unfold RunWork
  split
  case h_4 => exact h
  all_goals trivial

theorem keepsBoth_of_runWork (o : Op) (h : RunWork o) : KeepsBoth o := by
  unfold RunWork at h
  split at h
  case h_4 => exact keepsBoth_of_plain o h
  all_goals trivial

theorem checkAssert_runWork (ri : Gonitor.Task.RunningInstance)
    (execStat : Gonitor.Task.TaskExecStat) :
    (Gonitor.Task.checkAssert ri execStat).Uses RunWork := by
  unfold Gonitor.Task.checkAssert
  split
  · refine Prog.Uses.call_bind trivial fun passed => ?_
    cases passed <;> trivial
  · trivial

/-- One attempt. -/
theorem run_runWork (ri : Gonitor.Task.RunningInstance) : (ri.run ext).Uses RunWork := by
  refine Prog.Uses.call_bind trivial fun r => ?_
  cases r with
  | error err => trivial
  | ok pid =>
    refine Prog.Uses.call_bind trivial fun _ => ?_
    refine Prog.Uses.call_bind trivial fun _ => ?_
    refine Prog.Uses.call_bind trivial fun _ => ?_
    refine Prog.Uses.call_bind trivial fun ended => ?_
    cases ended with
    | timedOut => trivial
    | failed err stderr => trivial
    | exited stdout => exact checkAssert_runWork _ _

theorem retryLoop_runWork (taskInfo : Task) (fuel : Nat) (ri : Gonitor.Task.RunningInstance)
    (i : Int8) : (Gonitor.Task.retryLoop ext taskInfo fuel ri i).Uses RunWork := by
  induction fuel generalizing ri i with
  | zero => trivial
  | succ fuel ih =>
    rw [Gonitor.Task.retryLoop]
    split
    · apply (run_runWork ri).bind
      rintro ⟨ri', err⟩
      cases err with
      | none => trivial
      | some err => exact Prog.Uses.call_bind trivial fun _ => ih ri' (i + 1)
    · trivial

theorem recordSkippedRun_runWork (taskInfo : Task) (runErr : String) :
    (Gonitor.Task.recordSkippedRun taskInfo runErr).Uses RunWork := by
  refine Prog.Uses.call_bind trivial fun execTime => ?_
  refine Prog.Uses.call_bind trivial fun r => ?_
  cases r <;> trivial

theorem beforeRun_runWork (taskInfo : Task) :
    (Gonitor.Task.beforeRun taskInfo).Uses RunWork := by
  apply ((validateTaskDependency_uses taskInfo).mono runWork_of_plain).bind
  intro r
  cases r with
  | error err => exact (recordSkippedRun_runWork taskInfo err).bind fun _ => trivial
  | ok _ =>
    refine Prog.Uses.call_bind trivial fun execTime => ?_
    refine Prog.Uses.call_bind trivial fun r => ?_
    cases r <;> trivial

theorem afterRun_runWork (ri : Gonitor.Task.RunningInstance) :
    (Gonitor.Task.afterRun ri).Uses RunWork := by
  refine Prog.Uses.call_bind trivial fun time => ?_
  refine Prog.Uses.call_bind trivial fun _ => ?_
  split
  · refine Prog.Uses.call_bind trivial fun finished => ?_
    cases finished <;> trivial
  · trivial

theorem removeRunning_runWork (ri : Gonitor.Task.RunningInstance) :
    (Gonitor.Task.removeRunning ri).Uses RunWork := by
  refine Prog.Uses.call_bind trivial fun registered => ?_
  cases registered with
  | none => trivial
  | some found =>
    cases found with
    | false => trivial
    | true =>
      refine Prog.Uses.call_bind trivial fun removed => ?_
      cases removed <;> trivial

theorem runJob_runWork (taskInfo : Task) :
    (Gonitor.Task.runJob ext taskInfo).Uses RunWork := by
  refine Prog.Uses.call_bind trivial fun _ => ?_
  apply (beforeRun_runWork taskInfo).bind
  intro r
  cases r with
  | error err => trivial
  | ok ri =>
    apply (retryLoop_runWork taskInfo _ ri 0).bind
    intro ri'
    apply (afterRun_runWork ri').bind
    intro r
    cases r with
    | error panic => trivial
    | ok _ => exact removeRunning_runWork ri'

theorem runWrapped_runWork (e : EntryID) (job : WrappedJob) :
    (Gonitor.Task.runWrapped ext e job).Uses RunWork := by
  have hrelease : ∀ result, (Gonitor.Task.releaseOrCrash e result).Uses RunWork := by
    intro result
    cases result <;> exact ⟨trivial, fun _ => trivial⟩
  unfold Gonitor.Task.runWrapped
  split
  · exact (runJob_runWork job.taskInfo).bind fun _ => trivial
  · refine Prog.Uses.call_bind trivial fun acquired => ?_
    cases acquired with
    | false => trivial
    | true => exact (runJob_runWork job.taskInfo).bind hrelease
  · refine Prog.Uses.call_bind trivial fun _ => ?_
    exact (runJob_runWork job.taskInfo).bind hrelease

theorem managerStartOnceTask_runWork (taskId : Int) :
    (Gonitor.Task.startOnceTask ext taskId).Uses RunWork := by
  refine Prog.Uses.call_bind trivial fun r => ?_
  cases r with
  | error err => trivial
  | ok row =>
    refine Prog.Uses.call_bind trivial fun _ => ?_
    apply (beforeRun_runWork row).bind
    intro r
    cases r with
    | error err => trivial
    | ok ri =>
      apply (run_runWork ri).bind
      rintro ⟨ri', err⟩
      apply (afterRun_runWork ri').bind
      intro r
      cases r <;> trivial

end Runs

/-! ## Threads that serve no request -/

theorem stopThread_stopWork :
    (do Gonitor.Task.stop; pure Reply.done : Program Reply).Uses StopWork :=
  managerStop_stopWork.bind fun _ => trivial

theorem runThread_runWork {ext : Externals} (e : EntryID) (job : WrappedJob) :
    (do Gonitor.Task.runWrapped ext e job; pure Reply.done : Program Reply).Uses RunWork :=
  (runWrapped_runWork e job).bind fun _ => trivial

theorem stopThread_keepsBoth :
    (do Gonitor.Task.stop; pure Reply.done : Program Reply).Uses KeepsBoth :=
  keepsBoth_of_usesStopWork stopThread_stopWork

theorem runThread_keepsBoth {ext : Externals} (e : EntryID) (job : WrappedJob) :
    (do Gonitor.Task.runWrapped ext e job; pure Reply.done : Program Reply).Uses KeepsBoth :=
  (runThread_runWork e job).mono keepsBoth_of_runWork

/-! ## The task requests -/

section TaskHandlers

variable {ext : Externals}

theorem keepsNodes {α : Type} {p : Program α} (hp : p.Uses KeepsBoth) : p.Uses KeepsNodes :=
  hp.mono keepsNodes_of_both

/-- What a task request does, `ImportTasks` apart: it writes tasks, and leaves the nodes and the
    transactions alone. -/
def TaskWork : Op → Prop
  | .db (.createTask _) | .db (.saveTask _) | .db (.deleteTask _) => True
  | o => KeepsBoth o

theorem taskWork_of_both (o : Op) (h : KeepsBoth o) : TaskWork o := by
  unfold TaskWork
  split
  case h_4 => exact h
  all_goals trivial

theorem keepsNodes_of_taskWork (o : Op) (h : TaskWork o) : KeepsNodes o := by
  unfold TaskWork at h
  split at h
  case h_4 => exact keepsNodes_of_both o h
  all_goals trivial

theorem taskWork {α : Type} {p : Program α} (hp : p.Uses KeepsBoth) : p.Uses TaskWork :=
  hp.mono taskWork_of_both

/-- A response after an audit entry. -/
theorem logged_taskWork (caller : Caller) (t : Task) (opType : String) (reply : Reply) :
    (logTaskOperation caller t opType >>= fun _ => pure reply).Uses TaskWork :=
  taskWork (plain_keepsBoth (logged_uses caller t opType reply))

theorem addTask_taskWork (caller : Caller) (body : Except String TaskMutationPayload) :
    (Controller.addTask ext caller body).Uses TaskWork := by
  unfold Controller.addTask
  cases body with
  | error err => trivial
  | ok addInfo =>
    refine (taskWork (plain_keepsBoth (validateTaskMutationPayload_uses ext 0 addInfo))).bind
      fun r => ?_
    cases r with
    | some err => trivial
    | none =>
      refine Prog.Uses.call_bind trivial fun r => ?_
      cases r with
      | error err => trivial
      | ok taskModel =>
        refine (taskWork (syncTaskToNode_keepsBoth taskModel.id)).bind fun r => ?_
        cases r with
        | error err => trivial
        | ok _ => exact logged_taskWork _ _ _ _

theorem editTask_taskWork (caller : Caller) (taskId : Int)
    (body : Except String TaskMutationPayload) :
    (Controller.editTask ext caller taskId body).Uses TaskWork := by
  unfold Controller.editTask
  cases body with
  | error err => trivial
  | ok editInfo =>
    refine Prog.Uses.call_bind trivial fun r => ?_
    cases r with
    | error err => trivial
    | ok taskModel =>
      refine (taskWork (plain_keepsBoth
        (validateTaskMutationPayload_uses ext taskModel.id editInfo))).bind fun r => ?_
      cases r with
      | some err => trivial
      | none =>
        refine Prog.Uses.call_bind trivial fun r => ?_
        cases r with
        | error err => trivial
        | ok _ =>
          refine (taskWork (managerDeleteTask_keepsBoth _)).bind fun _ => ?_
          refine (taskWork (plain_keepsBoth (isLocalTask_uses _))).bind fun isLocal => ?_
          split
          · refine (taskWork (managerAddTask_keepsBoth _)).bind fun r => ?_
            cases r with
            | error err => trivial
            | ok _ => exact logged_taskWork _ _ _ _
          · exact logged_taskWork _ _ _ _

theorem deleteTask_taskWork (caller : Caller) (taskId : Int) :
    (Controller.deleteTask caller taskId).Uses TaskWork := by
  refine Prog.Uses.call_bind trivial fun r => ?_
  cases r with
  | error err => trivial
  | ok taskModel =>
    refine Prog.Uses.call_bind trivial fun r => ?_
    cases r with
    | error err => trivial
    | ok _ => exact logged_taskWork _ _ _ _

theorem stopTask_taskWork (caller : Caller) (taskId : Int) :
    (Controller.stopTask caller taskId).Uses TaskWork := by
  refine Prog.Uses.call_bind trivial fun r => ?_
  cases r with
  | error err => trivial
  | ok taskModel =>
    refine (taskWork (managerDeleteTask_keepsBoth taskId)).bind fun _ => ?_
    exact Prog.Uses.call_bind trivial fun _ => logged_taskWork _ _ _ _

theorem startTask_taskWork (caller : Caller) (taskId : Int) :
    (Controller.startTask caller taskId).Uses TaskWork := by
  refine Prog.Uses.call_bind trivial fun r => ?_
  cases r with
  | error err => trivial
  | ok taskModel =>
    refine Prog.Uses.call_bind trivial fun r => ?_
    cases r with
    | error err => trivial
    | ok _ =>
      refine (taskWork (managerAddTask_keepsBoth taskId)).bind fun r => ?_
      cases r with
      | error err => trivial
      | ok _ => exact logged_taskWork _ _ _ _

theorem startOnceTask_runWork (caller : Caller) (taskId : Int) :
    (Controller.startOnceTask ext caller taskId).Uses RunWork := by
  refine Prog.Uses.call_bind trivial fun r => ?_
  cases r with
  | error err => trivial
  | ok taskModel =>
    refine (managerStartOnceTask_runWork taskId).bind fun r => ?_
    cases r with
    | panicked => trivial
    | returned output err =>
      cases err with
      | some err => trivial
      | none => exact (logged_uses _ _ _ _).mono runWork_of_plain

theorem startOnceTask_keepsBoth (caller : Caller) (taskId : Int) :
    (Controller.startOnceTask ext caller taskId).Uses KeepsBoth :=
  (startOnceTask_runWork caller taskId).mono keepsBoth_of_runWork

/-- A request that is not about tasks writes none. -/
theorem request_keepsTasks {req : Request} (hreq : req.isTaskRequest = false) (caller : Caller) :
    (req.handle ext caller).Uses KeepsTasks := by
  have hside : (req.handle ext caller).Uses SideWork → (req.handle ext caller).Uses KeepsTasks :=
    fun h => h.mono keepsTasks_of_sideWork
  have haccount : (req.handle ext caller).Uses AccountWork →
      (req.handle ext caller).Uses KeepsTasks :=
    fun h => hside (h.mono sideWork_of_accountWork)
  have hnode : req.isNodeRequest = true → (req.handle ext caller).Uses KeepsTasks :=
    fun h => (nodeRequest_uses h caller).mono keepsTasks_of_nodeWork
  cases req with
  | addTask _ | editTask _ _ | deleteTask _ | startTask _ | stopTask _ | importTasks _ => cases hreq
  | startOnceTask taskId => exact (startOnceTask_keepsBoth caller taskId).mono keepsTasks_of_both
  | addNode _ | editNode _ _ | deleteNode _ | regenerateNodeKey _ | deployNode _
  | deployNewNode _ => exact hnode rfl
  | agentHeartbeat secretKey info => exact hside (agentHeartbeat_uses secretKey info)
  | agentGetTasks secretKey since => exact hside (agentGetTasks_uses secretKey since)
  | agentReportTaskResult secretKey body => exact hside (agentReportTaskResult_uses secretKey body)
  | agentCheckUpdate secretKey version => exact hside (agentCheckUpdate_uses ext secretKey version)
  | agentReportEvents secretKey body => exact hside (agentReportEvents_uses secretKey body)
  | userLogin loginAccount password =>
    exact haccount (userLogin_uses ext caller.clientIP loginAccount password)
  | addUser body => exact haccount (addUser_uses caller body)
  | editUser userId body => exact haccount (editUser_uses caller userId body)
  | deleteUser userId => exact haccount (deleteUser_uses caller userId)

end TaskHandlers

end Gonitor.Requests
