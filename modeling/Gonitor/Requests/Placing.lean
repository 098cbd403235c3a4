import Gonitor.Framework.AssuredProgram
import Gonitor.Requests.Responsibilities

/-!
# What Gets Scheduled

`Manager.AddTask` is the only function that adds cron entries, and before it does it asks
`isLocalTask`.  That lookup also says "local" where the node cannot be found; so which tasks get
scheduled depends on what the lookups answer.  While only lookups of the nodes in `masters` fail
or answer a master, only tasks of these nodes get scheduled.

Nearly all other functions neither schedule nor save tasks (`Inert`).

## Main Results

- `managerAddTask_places`: `Manager.AddTask` schedules only such tasks.
- `request_places`: so does every request; and it saves only live rows.
-/

namespace Gonitor.Requests

open Gonitor.Model Gonitor.Server Gonitor.Controller AtomicProgram SoftDelete

/-! ## Operations and answers -/

/-- The task has no node, or one of these. -/
def OnOneOf (masters : Int → Prop) (nodeID : Int) : Prop := nodeID = 0 ∨ masters nodeID

/-- The operations that schedule only tasks of these nodes, and save only live rows. -/
def PlacingOk (masters : Int → Prop) : Op → Prop
  | .db (.saveTask row) => live row = true
  | .sched (.cronAddJob _ job) => OnOneOf masters job.taskInfo.nodeID
  | _ => True

/-- The tasks found are live; `isLocalTask` finds a master, or no node at all, only for these
    nodes. -/
def PlacingAns (masters : Int → Prop) : (o : Op) → o.Res → Prop
  | .db (.findTask _), .ok row => live row = true
  | .db (.findNode .managerIsLocalTask id), .ok node => node.isMaster = true → masters id
  | .db (.findNode .managerIsLocalTask id), .error _ => masters id
  | _, _ => True

/-- The operation neither saves nor schedules a task. -/
def Inert : Op → Prop
  | .db (.saveTask _) | .sched (.cronAddJob _ _) => False
  | _ => True

section Footprints

variable {masters : Int → Prop} {α : Type}

theorem placingOk_of_inert (o : Op) (h : Inert o) : PlacingOk masters o := by
  unfold PlacingOk
  split
  case h_1 => exact h.elim
  case h_2 => exact h.elim
  case h_3 => trivial

theorem inert_of_stopWork (o : Op) (h : StopWork o) : Inert o := by
  unfold StopWork at h
  split at h
  -- the last case is that of all other operations
  case h_7 => exact h.elim
  all_goals trivial

theorem inert_of_plain (o : Op) (h : Plain o) : Inert o := by
  unfold Plain at h
  split at h
  case h_15 => exact h.elim
  all_goals trivial

theorem inert_of_runWork (o : Op) (h : RunWork o) : Inert o := by
  unfold RunWork at h
  split at h
  case h_4 => exact inert_of_plain o h
  all_goals trivial

theorem inert_of_sideWork (o : Op) (h : SideWork o) : Inert o := by
  have hnode : NodeWork o → Inert o := by
    intro hnode
    unfold NodeWork at hnode
    split at hnode
    case h_4 => exact inert_of_plain o hnode
    all_goals trivial
  unfold SideWork at h
  split at h
  case h_8 => exact hnode h
  all_goals trivial

/-- The program schedules and saves as it should. -/
def Places (masters : Int → Prop) (p : Program α) : Prop :=
  p.Assured (PlacingOk masters) (PlacingAns masters)

theorem Places.of_inert {p : Program α} (hp : p.Uses Inert) : Places masters p :=
  .of_uses hp placingOk_of_inert

theorem Places.of_plain {p : Program α} (hp : p.Uses Plain) : Places masters p :=
  .of_inert (hp.mono inert_of_plain)

/-! ## The manager -/

theorem startInstance_places (taskId : Int) {row : Task} (hrow : OnOneOf masters row.nodeID) :
    Places masters (Gonitor.Task.startInstance taskId row) := by
  refine .call_bind hrow fun r _ => ?_
  cases r with
  | error err => trivial
  | ok entryID => exact .call_bind trivial fun _ _ => trivial

/-- `Manager.AddTask` goes by what `isLocalTask` says. -/
theorem managerAddTask_places (taskId : Int) : Places masters (Gonitor.Task.addTask taskId) := by
  refine .call_bind trivial fun r _ => ?_
  cases r with
  | some ti => trivial
  | none =>
    refine .call_bind trivial fun r _ => ?_
    cases r with
    | error err => trivial
    | ok row =>
      dsimp only
      split
      · -- a disabled task is not scheduled
        trivial
      · unfold Gonitor.Task.isLocalTask
        split
        · -- the task has no node
          rename_i hzero
          exact startInstance_places taskId (.inl hzero)
        · refine .call_bind trivial fun r hr => ?_
          cases r with
          -- no node is found: the master runs the task
          | error err => exact startInstance_places taskId (.inr hr)
          | ok node =>
            show Places masters (if node.isMaster = true then
              Gonitor.Task.startInstance taskId row else pure (.ok ()))
            split
            · rename_i hmaster
              exact startInstance_places taskId (.inr (hr hmaster))
            · trivial

theorem managerDeleteTask_places (taskId : Int) :
    Places masters (Gonitor.Task.deleteTask taskId) :=
  .of_inert ((managerDeleteTask_stopWork taskId).mono inert_of_stopWork)

theorem addTasks_places (taskList : List Task) :
    Places masters (Gonitor.Task.addTasks taskList) := by
  induction taskList with
  | nil => trivial
  | cons taskItem taskList ih => exact (managerAddTask_places taskItem.id).bind fun _ => ih

/-- `Manager.Start` -/
theorem start_places : Places masters Gonitor.Task.start := by
  refine .call_bind trivial fun r _ => ?_
  cases r with
  | error err => exact ⟨trivial, fun _ _ => trivial⟩
  | ok taskList => exact addTasks_places taskList

/-! ## The task requests -/

variable {ext : Externals}

theorem logged_places (caller : Caller) (t : Task) (opType : String) (reply : Reply) :
    Places masters (logTaskOperation caller t opType >>= fun _ => pure reply) :=
  .of_plain (logged_uses caller t opType reply)

theorem syncTaskToNode_places (taskId : Int) : Places masters (syncTaskToNode taskId) := by
  refine .call_bind trivial fun r _ => ?_
  cases r with
  | error err => trivial
  | ok taskModel =>
    dsimp only
    split
    · exact managerAddTask_places taskId
    · refine .call_bind trivial fun r _ => ?_
      cases r with
      | error err => trivial
      | ok nodeModel =>
        dsimp only
        split
        · exact managerAddTask_places taskId
        · trivial

theorem addTask_places (caller : Caller) (body : Except String TaskMutationPayload) :
    Places masters (Controller.addTask ext caller body) := by
  unfold Controller.addTask
  cases body with
  | error err => trivial
  | ok addInfo =>
    apply (Places.of_plain (validateTaskMutationPayload_uses ext 0 addInfo)).bind
    intro r
    cases r with
    | some err => trivial
    | none =>
      refine .call_bind trivial fun r _ => ?_
      cases r with
      | error err => trivial
      | ok taskModel =>
        apply (syncTaskToNode_places taskModel.id).bind
        intro r
        cases r with
        | error err => trivial
        | ok _ => exact logged_places _ _ _ _

theorem editTask_places (caller : Caller) (taskId : Int)
    (body : Except String TaskMutationPayload) :
    Places masters (Controller.editTask ext caller taskId body) := by
  unfold Controller.editTask
  cases body with
  | error err => trivial
  | ok editInfo =>
    refine .call_bind trivial fun r hr => ?_
    cases r with
    | error err => trivial
    | ok taskModel =>
      apply (Places.of_plain (validateTaskMutationPayload_uses ext taskModel.id editInfo)).bind
      intro r
      cases r with
      | some err => trivial
      | none =>
        -- the payload replaces the columns, not the stamps of the row
        refine .call_bind hr fun r _ => ?_
        cases r with
        | error err => trivial
        | ok _ =>
          apply (managerDeleteTask_places _).bind
          intro _
          apply (Places.of_plain (isLocalTask_uses _)).bind
          intro isLocal
          -- the handler's own `isLocalTask` decides whether to ask the manager
          split
          · apply (managerAddTask_places _).bind
            intro r
            cases r with
            | error err => trivial
            | ok _ => exact logged_places _ _ _ _
          · exact logged_places _ _ _ _

theorem deleteTask_places (caller : Caller) (taskId : Int) :
    Places masters (Controller.deleteTask caller taskId) := by
  refine .call_bind trivial fun r _ => ?_
  cases r with
  | error err => trivial
  | ok taskModel =>
    refine .call_bind trivial fun r _ => ?_
    cases r with
    | error err => trivial
    | ok _ => exact logged_places _ _ _ _

theorem stopTask_places (caller : Caller) (taskId : Int) :
    Places masters (Controller.stopTask caller taskId) := by
  refine .call_bind trivial fun r hr => ?_
  cases r with
  | error err => trivial
  | ok taskModel =>
    apply (managerDeleteTask_places taskId).bind
    intro _
    -- what is saved is the row as it was read, disabled
    exact .call_bind hr fun _ _ => logged_places _ _ _ _

theorem startTask_places (caller : Caller) (taskId : Int) :
    Places masters (Controller.startTask caller taskId) := by
  refine .call_bind trivial fun r hr => ?_
  cases r with
  | error err => trivial
  | ok taskModel =>
    refine .call_bind hr fun r _ => ?_
    cases r with
    | error err => trivial
    | ok _ =>
      apply (managerAddTask_places taskId).bind
      intro r
      cases r with
      | error err => trivial
      | ok _ => exact logged_places _ _ _ _

/-! ## All threads -/

/-- **Every request** of the pool. -/
theorem request_places (caller : Caller) (req : Request) (hreq : ∀ body, req ≠ .importTasks body) :
    Places masters (req.handle ext caller) := by
  have hside : ∀ p : Program Reply, p.Uses SideWork → Places masters p :=
    fun p hp => .of_inert (hp.mono inert_of_sideWork)
  have hnode : req.isNodeRequest = true → Places masters (req.handle ext caller) :=
    fun h => hside _ ((nodeRequest_uses h caller).mono sideWork_of_nodeWork)
  have haccount : ∀ p : Program Reply, p.Uses AccountWork → Places masters p :=
    fun p hp => hside p (hp.mono sideWork_of_accountWork)
  cases req with
  | addTask body => exact addTask_places caller body
  | editTask taskId body => exact editTask_places caller taskId body
  | deleteTask taskId => exact deleteTask_places caller taskId
  | startTask taskId => exact startTask_places caller taskId
  | stopTask taskId => exact stopTask_places caller taskId
  | startOnceTask taskId =>
    exact .of_inert ((startOnceTask_runWork caller taskId).mono inert_of_runWork)
  | importTasks body => exact absurd rfl (hreq body)
  | addNode _ | editNode _ _ | deleteNode _ | regenerateNodeKey _ | deployNode _
  | deployNewNode _ => exact hnode rfl
  | agentHeartbeat secretKey info => exact hside _ (agentHeartbeat_uses secretKey info)
  | agentGetTasks secretKey since => exact hside _ (agentGetTasks_uses secretKey since)
  | agentReportTaskResult secretKey body =>
    exact hside _ (agentReportTaskResult_uses secretKey body)
  | agentCheckUpdate secretKey version =>
    exact hside _ (agentCheckUpdate_uses ext secretKey version)
  | agentReportEvents secretKey body => exact hside _ (agentReportEvents_uses secretKey body)
  | userLogin loginAccount password =>
    exact haccount _ (userLogin_uses ext caller.clientIP loginAccount password)
  | addUser body => exact haccount _ (addUser_uses caller body)
  | editUser userId body => exact haccount _ (editUser_uses caller userId body)
  | deleteUser userId => exact haccount _ (deleteUser_uses caller userId)

end Footprints

end Gonitor.Requests
