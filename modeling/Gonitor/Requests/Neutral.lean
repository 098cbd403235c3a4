import Gonitor.Requests.Responsibilities

/-!
# Requests That Have No Part

Most requests have no part in what runs, and in the accounts: they insert no row of a run that is going
on, save no such row and start no command, and they change no user and no token.  The rows of the agents
are inserted as rows of runs that have ended.
-/

namespace Gonitor.Requests

open Gonitor.Model Gonitor.Server Gonitor.Controller AtomicProgram

/-- The operation is none of those that a run writes its row with, and starts no command. -/
def Neutral : Op → Prop
  | .db (.createTaskLog _) | .db (.saveTaskLog _) => False
  | .db (.createReportLog row) => row.status = false
  | .run (.startProcess _ _ _ _) => False
  | _ => True

/-- The operation changes no user, and inserts no token. -/
def KeepsAccounts : Op → Prop
  | .db (.createUser _) | .db (.saveUser _) | .db (.deleteUser _) | .db (.createUserToken _) => False
  | _ => True

/-- Neither of both. -/
def Bystander (o : Op) : Prop := Neutral o ∧ KeepsAccounts o

theorem bystander_of_plain (o : Op) (h : Plain o) : Bystander o := by
  unfold Plain at h
  split at h
  case h_15 => exact h.elim
  all_goals exact ⟨trivial, trivial⟩

theorem bystander_of_nodeWork (o : Op) (h : NodeWork o) : Bystander o := by
  unfold NodeWork at h
  split at h
  case h_4 => exact bystander_of_plain o h
  all_goals exact ⟨trivial, trivial⟩

theorem bystander_of_managerWork (o : Op) (h : ManagerWork o) : Bystander o := by
  unfold ManagerWork at h
  split at h
  case h_4 => exact h.elim
  all_goals exact ⟨trivial, trivial⟩

/-- The requests about users run nothing. -/
theorem neutral_of_accountWork (o : Op) (h : AccountWork o) : Neutral o := by
  unfold AccountWork at h
  split at h
  case h_6 => exact (bystander_of_plain o h).1
  all_goals trivial

/-- Runs change no user. -/
theorem keepsAccounts_of_runWork (o : Op) (h : RunWork o) : KeepsAccounts o := by
  unfold RunWork at h
  split at h
  case h_4 => exact (bystander_of_plain o h).2
  all_goals trivial

section Handlers

variable {ext : Externals} {α : Type}

theorem bystander_of_usesPlain {p : Program α} (hp : p.Uses Plain) : p.Uses Bystander :=
  hp.mono bystander_of_plain

theorem bystander_of_usesManagerWork {p : Program α} (hp : p.Uses ManagerWork) : p.Uses Bystander :=
  hp.mono bystander_of_managerWork

theorem managerDeleteTask_bystander (taskId : Int) :
    (Gonitor.Task.deleteTask taskId).Uses Bystander :=
  bystander_of_usesManagerWork ((managerDeleteTask_stopWork taskId).mono managerWork_of_stopWork)

theorem stopThread_bystander :
    (do Gonitor.Task.stop; pure Reply.done : Program Reply).Uses Bystander :=
  bystander_of_usesManagerWork (stopThread_stopWork.mono managerWork_of_stopWork)

theorem neutral_of_usesBystander {p : Program α} (hp : p.Uses Bystander) : p.Uses Neutral :=
  hp.mono fun _ h => h.1

theorem keepsAccounts_of_usesBystander {p : Program α} (hp : p.Uses Bystander) :
    p.Uses KeepsAccounts := hp.mono fun _ h => h.2

/-- A response after an audit entry. -/
theorem logged_bystander (caller : Caller) (t : Task) (opType : String) (reply : Reply) :
    (logTaskOperation caller t opType >>= fun _ => pure reply).Uses Bystander :=
  bystander_of_usesPlain (logged_uses caller t opType reply)

/-! ## The task requests -/

theorem addTask_bystander (caller : Caller) (body : Except String TaskMutationPayload) :
    (Controller.addTask ext caller body).Uses Bystander := by
  unfold Controller.addTask
  cases body with
  | error err => trivial
  | ok addInfo =>
    apply (bystander_of_usesPlain (validateTaskMutationPayload_uses ext 0 addInfo)).bind
    intro r
    cases r with
    | some err => trivial
    | none =>
      refine Prog.Uses.call_bind ⟨trivial, trivial⟩ fun r => ?_
      cases r with
      | error err => trivial
      | ok taskModel =>
        apply (bystander_of_usesManagerWork (syncTaskToNode_managerWork taskModel.id)).bind
        intro r
        cases r with
        | error err => trivial
        | ok _ => exact logged_bystander _ _ _ _

theorem editTask_bystander (caller : Caller) (taskId : Int)
    (body : Except String TaskMutationPayload) :
    (Controller.editTask ext caller taskId body).Uses Bystander := by
  unfold Controller.editTask
  cases body with
  | error err => trivial
  | ok editInfo =>
    refine Prog.Uses.call_bind ⟨trivial, trivial⟩ fun r => ?_
    cases r with
    | error err => trivial
    | ok taskModel =>
      apply (bystander_of_usesPlain
        (validateTaskMutationPayload_uses ext taskModel.id editInfo)).bind
      intro r
      cases r with
      | some err => trivial
      | none =>
        refine Prog.Uses.call_bind ⟨trivial, trivial⟩ fun r => ?_
        cases r with
        | error err => trivial
        | ok _ =>
          apply (managerDeleteTask_bystander _).bind
          intro _
          apply (bystander_of_usesPlain (isLocalTask_uses _)).bind
          intro isLocal
          split
          · apply (bystander_of_usesManagerWork (managerAddTask_managerWork _)).bind
            intro r
            cases r with
            | error err => trivial
            | ok _ => exact logged_bystander _ _ _ _
          · exact logged_bystander _ _ _ _

theorem deleteTask_bystander (caller : Caller) (taskId : Int) :
    (Controller.deleteTask caller taskId).Uses Bystander := by
  refine Prog.Uses.call_bind ⟨trivial, trivial⟩ fun r => ?_
  cases r with
  | error err => trivial
  | ok taskModel =>
    refine Prog.Uses.call_bind ⟨trivial, trivial⟩ fun r => ?_
    cases r with
    | error err => trivial
    | ok _ => exact logged_bystander _ _ _ _

theorem stopTask_bystander (caller : Caller) (taskId : Int) :
    (Controller.stopTask caller taskId).Uses Bystander := by
  refine Prog.Uses.call_bind ⟨trivial, trivial⟩ fun r => ?_
  cases r with
  | error err => trivial
  | ok taskModel =>
    apply (managerDeleteTask_bystander taskId).bind
    intro _
    exact Prog.Uses.call_bind ⟨trivial, trivial⟩ fun _ => logged_bystander _ _ _ _

theorem startTask_bystander (caller : Caller) (taskId : Int) :
    (Controller.startTask caller taskId).Uses Bystander := by
  refine Prog.Uses.call_bind ⟨trivial, trivial⟩ fun r => ?_
  cases r with
  | error err => trivial
  | ok taskModel =>
    refine Prog.Uses.call_bind ⟨trivial, trivial⟩ fun r => ?_
    cases r with
    | error err => trivial
    | ok _ =>
      apply (bystander_of_usesManagerWork (managerAddTask_managerWork taskId)).bind
      intro r
      cases r with
      | error err => trivial
      | ok _ => exact logged_bystander _ _ _ _

/-! ## The agent requests -/

theorem withNode_bystander (secretKey : String) {answer : Node → Program Reply}
    (h : ∀ nodeModel, (answer nodeModel).Uses Bystander) :
    (withNode secretKey answer).Uses Bystander := by
  unfold withNode
  split
  · trivial
  · refine Prog.Uses.call_bind ⟨trivial, trivial⟩ fun r => ?_
    cases r with
    | error err => trivial
    | ok nodeModel => exact h nodeModel

theorem agentReportTaskResult_bystander (secretKey : String) (body : Except String TaskResult) :
    (Controller.agentReportTaskResult secretKey body).Uses Bystander := by
  apply withNode_bystander
  intro nodeModel
  cases body with
  | error err => trivial
  | ok resultInfo =>
    refine Prog.Uses.call_bind ⟨trivial, trivial⟩ fun r => ?_
    cases r with
    | error err => trivial
    | ok taskModel =>
      -- the run of the agent has ended
      exact Prog.Uses.call_bind ⟨trivial, trivial⟩ fun execTime => Prog.Uses.call_bind ⟨rfl, trivial⟩ fun _ => trivial

theorem agentReportEvents_bystander (secretKey : String) (body : Except String (List EventItem)) :
    (Controller.agentReportEvents secretKey body).Uses Bystander := by
  have hevents : ∀ (nodeID : Int) (events : List EventItem),
      (createEvents nodeID events).Uses Bystander := by
    intro nodeID events
    induction events with
    | nil => trivial
    | cons evt events ih =>
      have htime : evt.time.Uses Bystander := by
        unfold EventItem.time
        split
        · trivial
        · exact ⟨⟨trivial, trivial⟩, fun _ => trivial⟩
      apply htime.bind
      intro eventTime
      exact Prog.Uses.call_bind ⟨trivial, trivial⟩ fun _ => ih
  apply withNode_bystander
  intro nodeModel
  cases body with
  | error err => trivial
  | ok events => exact (hevents nodeModel.id events).bind fun _ => trivial

/-! ## All of them -/

/-- The requests but `StartOnceTask`, which runs a task, `ImportTasks`, and those about users. -/
theorem handle_bystander (caller : Caller) (req : Request) (hrun : ∀ taskId, req ≠ .startOnceTask taskId)
    (himport : ∀ body, req ≠ .importTasks body) (huser : req.isUserRequest = false) :
    (req.handle ext caller).Uses Bystander := by
  have hnode : req.isNodeRequest = true → (req.handle ext caller).Uses Bystander :=
    fun h => (nodeRequest_uses h caller).mono bystander_of_nodeWork
  cases req with
  | addTask body => exact addTask_bystander caller body
  | editTask taskId body => exact editTask_bystander caller taskId body
  | deleteTask taskId => exact deleteTask_bystander caller taskId
  | startTask taskId => exact startTask_bystander caller taskId
  | stopTask taskId => exact stopTask_bystander caller taskId
  | startOnceTask taskId => exact absurd rfl (hrun taskId)
  | importTasks body => exact absurd rfl (himport body)
  | addNode _ | editNode _ _ | deleteNode _ | regenerateNodeKey _ | deployNode _
  | deployNewNode _ => exact hnode rfl
  | agentHeartbeat secretKey info =>
    apply withNode_bystander
    intro nodeModel
    exact Prog.Uses.call_bind ⟨trivial, trivial⟩ fun instant =>
      Prog.Uses.call_bind ⟨trivial, trivial⟩ fun _ => trivial
  | agentGetTasks secretKey since =>
    apply withNode_bystander
    intro nodeModel
    exact Prog.Uses.call_bind ⟨trivial, trivial⟩ fun taskList => trivial
  | agentReportTaskResult secretKey body => exact agentReportTaskResult_bystander secretKey body
  | agentCheckUpdate secretKey version =>
    apply withNode_bystander
    intro nodeModel
    trivial
  | agentReportEvents secretKey body => exact agentReportEvents_bystander secretKey body
  | userLogin _ _ | addUser _ | editUser _ _ | deleteUser _ => cases huser

/-- The requests about users write the users and their tokens. -/
theorem userRequest_uses (caller : Caller) {req : Request} (huser : req.isUserRequest = true) :
    (req.handle ext caller).Uses AccountWork := by
  cases req with
  | userLogin loginAccount password => exact userLogin_uses ext caller.clientIP loginAccount password
  | addUser body => exact addUser_uses caller body
  | editUser userId body => exact editUser_uses caller userId body
  | deleteUser userId => exact deleteUser_uses caller userId
  | _ => cases huser

/-- The requests that run nothing. -/
theorem handle_neutral (caller : Caller) (req : Request) (hrun : ∀ taskId, req ≠ .startOnceTask taskId)
    (himport : ∀ body, req ≠ .importTasks body) : (req.handle ext caller).Uses Neutral := by
  cases huser : req.isUserRequest with
  | false => exact neutral_of_usesBystander (handle_bystander caller req hrun himport huser)
  | true => exact (userRequest_uses caller huser).mono neutral_of_accountWork

end Handlers

end Gonitor.Requests
