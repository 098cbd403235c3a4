import Gonitor.Requests.Serving

/-!
# Footprints

Which operations the simple parts of the handlers use.  A *plain* operation reads a row,
writes to the audit log or asks the world; most of a handler is made of these.  The node
requests also write nodes, the requests of agents and about users write tables that no task
is in.  What follows for the schedule, or for the place of a thread in its code, is a fact
about operations alone.
-/

namespace Gonitor.Requests

open Gonitor.Model Gonitor.Server Gonitor.Controller AtomicProgram

/-- Reads of rows, writes to the audit log, questions to the world. -/
def Plain : Op → Prop
  | .db (.findTask _) | .db .enabledTasks | .db (.findNode _ _) | .db (.findNodeNamed _ _) => True
  | .db (.countNodeTasks _) | .db (.lastEndedLog _) => True
  | .db .findMaster | .db (.findNodeWithKey _) | .db (.nodeTasks _ _) => True
  | .db (.findNodeTask _ _) | .db (.findUserByAccount _) => True
  | .db (.userInfo _) | .db (.createOperationLog _) => True
  | .world _ => True
  | _ => False

/-- Plain operations and writes to the node table. -/
def NodeWork : Op → Prop
  | .db (.createNode _) | .db (.saveNode _) | .db (.deleteNode _) => True
  | o => Plain o

/-- Node work, and writes to the logs, events, users and tokens. -/
def SideWork : Op → Prop
  | .db (.createReportLog _) | .db (.createNodeEvent _) => True
  | .db (.createUser _) | .db (.saveUser _) | .db (.deleteUser _) => True
  | .db (.deleteUserTokens _) | .db (.createUserToken _) => True
  | o => NodeWork o

/-- Plain operations, and writes to the users and their tokens. -/
def AccountWork : Op → Prop
  | .db (.createUser _) | .db (.saveUser _) | .db (.deleteUser _) => True
  | .db (.deleteUserTokens _) | .db (.createUserToken _) => True
  | o => Plain o

theorem nodeWork_of_plain (o : Op) (h : Plain o) : NodeWork o := by
  unfold NodeWork
  split
  · trivial
  · trivial
  · trivial
  · exact h

theorem sideWork_of_nodeWork (o : Op) (h : NodeWork o) : SideWork o := by
  unfold SideWork
  split
  case h_8 => exact h
  all_goals trivial

theorem accountWork_of_plain (o : Op) (h : Plain o) : AccountWork o := by
  unfold AccountWork
  split
  case h_6 => exact h
  all_goals trivial

theorem sideWork_of_accountWork (o : Op) (h : AccountWork o) : SideWork o := by
  unfold AccountWork at h
  split at h
  case h_6 => exact sideWork_of_nodeWork o (nodeWork_of_plain o h)
  all_goals trivial

/-! ## Parts of the task requests -/

theorem validateTaskMutationPayload_uses (ext : Externals) (taskID : Int)
    (payload : TaskMutationPayload) :
    (validateTaskMutationPayload ext taskID payload).Uses Plain := by
  unfold validateTaskMutationPayload
  split
  · trivial
  · split
    · split
      · trivial
      · refine ⟨trivial, fun r => ?_⟩
        cases r <;> trivial
    · trivial

theorem addOperationLog_uses (userId targetId : Int) (opType remark : String) :
    (addOperationLog userId targetId opType remark).Uses Plain := by
  refine ⟨trivial, fun r => ?_⟩
  cases r with
  | error err => trivial
  | ok info => exact ⟨trivial, fun _ => trivial⟩

theorem validateTaskDependency_uses (t : Task) :
    (Gonitor.Task.validateTaskDependency t).Uses Plain := by
  unfold Gonitor.Task.validateTaskDependency
  split
  · trivial
  · split
    · trivial
    · refine Prog.Uses.call_bind trivial fun r => ?_
      cases r with
      | error err => trivial
      | ok dependencyTask =>
        refine Prog.Uses.call_bind trivial fun r => ?_
        cases r with
        | error err => cases err <;> trivial
        | ok lastTaskLog =>
          dsimp only
          split <;> trivial

theorem isLocalTask_uses (t : Task) : (Controller.isLocalTask t).Uses Plain := by
  unfold Controller.isLocalTask
  split
  · trivial
  · refine ⟨trivial, fun r => ?_⟩
    cases r <;> trivial

/-- A response after an audit entry. -/
theorem logged_uses (caller : Caller) (t : Task) (opType : String) (reply : Reply) :
    (logTaskOperation caller t opType >>= fun _ => pure reply).Uses Plain :=
  (addOperationLog_uses _ _ _ _).bind fun _ => trivial

/-! ## The node requests -/

section NodeHandlers

variable {ext : Externals}

theorem addOperationLog_usesNodeWork (userId targetId : Int) (opType remark : String) :
    (addOperationLog userId targetId opType remark).Uses NodeWork :=
  (addOperationLog_uses userId targetId opType remark).mono nodeWork_of_plain

theorem addNode_uses (caller : Caller) (body : Except String NodeForm) :
    (Controller.addNode caller body).Uses NodeWork := by
  unfold Controller.addNode
  cases body with
  | error err => trivial
  | ok addInfo =>
    dsimp only
    split
    · trivial
    · refine Prog.Uses.call_bind trivial fun r => ?_
      cases r with
      | ok node => trivial
      | error err =>
        refine Prog.Uses.call_bind trivial fun secretKey => Prog.Uses.call_bind trivial fun r => ?_
        cases r with
        | error err => trivial
        | ok nodeModel => exact (addOperationLog_usesNodeWork _ _ _ _).bind fun _ => trivial

theorem editNode_uses (caller : Caller) (nodeId : Int) (body : Except String NodeForm) :
    (Controller.editNode caller nodeId body).Uses NodeWork := by
  unfold Controller.editNode
  cases body with
  | error err => trivial
  | ok editInfo =>
    refine Prog.Uses.call_bind trivial fun r => ?_
    cases r with
    | error err => trivial
    | ok nodeModel =>
      dsimp only
      split
      · trivial
      · split
        · trivial
        · refine Prog.Uses.call_bind trivial fun r => ?_
          cases r with
          | ok node => trivial
          | error err =>
            refine Prog.Uses.call_bind trivial fun r => ?_
            cases r with
            | error err => trivial
            | ok _ => exact (addOperationLog_usesNodeWork _ _ _ _).bind fun _ => trivial

theorem deleteNode_uses (caller : Caller) (nodeId : Int) :
    (Controller.deleteNode caller nodeId).Uses NodeWork := by
  refine Prog.Uses.call_bind trivial fun r => ?_
  cases r with
  | error err => trivial
  | ok nodeModel =>
    dsimp only
    split
    · trivial
    · refine Prog.Uses.call_bind trivial fun taskCount => ?_
      split
      · trivial
      · refine Prog.Uses.call_bind trivial fun r => ?_
        cases r with
        | error err => trivial
        | ok _ => exact (addOperationLog_usesNodeWork _ _ _ _).bind fun _ => trivial

theorem regenerateNodeKey_uses (nodeId : Int) :
    (Controller.regenerateNodeKey nodeId).Uses NodeWork := by
  refine Prog.Uses.call_bind trivial fun r => ?_
  cases r with
  | error err => trivial
  | ok nodeModel =>
    dsimp only
    split
    · trivial
    · refine Prog.Uses.call_bind trivial fun secretKey => Prog.Uses.call_bind trivial fun r => ?_
      cases r <;> trivial

/-- The remote system is asked nothing but commands. -/
theorem collectRemoteSystemInfo_uses {P : Op → Prop}
    (hP : ∀ command, P (.world (.runSSHCommand command))) : collectRemoteSystemInfo.Uses P := by
  have hquery : ∀ commands, (querySystemInfo commands).Uses P := by
    intro commands
    induction commands with
    | nil => trivial
    | cons command commands ih =>
      refine Prog.Uses.call_bind (hP _) fun r => ?_
      exact ih.bind fun _ => trivial
  exact (hquery _).bind fun _ => trivial

theorem executeDeployCommands_uses {P : Op → Prop}
    (hP : ∀ command, P (.world (.runSSHCommand command))) (installPath : String) (node : Node) :
    (executeDeployCommands ext installPath node).Uses P := by
  have hrun : ∀ commands, (runDeployCommands commands).Uses P := by
    intro commands
    induction commands with
    | nil => trivial
    | cons command commands ih =>
      refine Prog.Uses.call_bind (hP _) fun r => ?_
      exact ih.bind fun _ => trivial
  exact (hrun _).bind fun _ => trivial

theorem deployNodeWith_uses (caller : Caller) (form : DeployForm) :
    (deployNodeWith ext caller form).Uses NodeWork := by
  refine Prog.Uses.call_bind trivial fun r => ?_
  cases r with
  | error err => trivial
  | ok nodeModel =>
    dsimp only
    split
    · trivial
    · refine Prog.Uses.call_bind trivial fun r => ?_
      cases r with
      | error err => trivial
      | ok _ =>
        refine (collectRemoteSystemInfo_uses fun _ => trivial).bind fun sysInfo => ?_
        refine (executeDeployCommands_uses (fun _ => trivial) _ _).bind fun deployLog => ⟨trivial, fun _ => ?_⟩
        exact (addOperationLog_usesNodeWork _ _ _ _).bind fun _ => trivial

theorem deployNode_uses (caller : Caller) (body : Except String DeployForm) :
    (Controller.deployNode ext caller body).Uses NodeWork := by
  unfold Controller.deployNode
  cases body with
  | error err => trivial
  | ok form =>
    dsimp only
    repeat' split
    all_goals first | trivial | exact deployNodeWith_uses caller form

theorem deployNewNodeWith_uses (caller : Caller) (form : DeployNewForm) :
    (deployNewNodeWith ext caller form).Uses NodeWork := by
  refine Prog.Uses.call_bind trivial fun r => ?_
  cases r with
  | ok node => trivial
  | error err =>
    refine Prog.Uses.call_bind trivial fun r => ?_
    cases r with
    | error err => trivial
    | ok _ =>
      refine (collectRemoteSystemInfo_uses fun _ => trivial).bind fun sysInfo => ?_
      refine Prog.Uses.call_bind trivial fun secretKey => Prog.Uses.call_bind trivial fun r => ?_
      cases r with
      | error err => trivial
      | ok nodeModel =>
        refine (executeDeployCommands_uses (fun _ => trivial) _ _).bind fun deployLog => ?_
        exact (addOperationLog_usesNodeWork _ _ _ _).bind fun _ => trivial

theorem deployNewNode_uses (caller : Caller) (body : Except String DeployNewForm) :
    (Controller.deployNewNode ext caller body).Uses NodeWork := by
  unfold Controller.deployNewNode
  cases body with
  | error err => trivial
  | ok form =>
    dsimp only
    repeat' split
    all_goals first | trivial | exact deployNewNodeWith_uses caller form

/-- All node requests. -/
theorem nodeRequest_uses {req : Request} (hreq : req.isNodeRequest = true) (caller : Caller) :
    (req.handle ext caller).Uses NodeWork := by
  cases req with
  | addNode body => exact addNode_uses caller body
  | editNode nodeId body => exact editNode_uses caller nodeId body
  | deleteNode nodeId => exact deleteNode_uses caller nodeId
  | regenerateNodeKey nodeId => exact regenerateNodeKey_uses nodeId
  | deployNode body => exact deployNode_uses caller body
  | deployNewNode body => exact deployNewNode_uses caller body
  | _ => cases hreq

end NodeHandlers

/-! ## The agent requests -/

section AgentHandlers

theorem withNode_uses (secretKey : String) {answer : Node → Program Reply}
    (h : ∀ nodeModel, (answer nodeModel).Uses SideWork) :
    (withNode secretKey answer).Uses SideWork := by
  unfold withNode
  split
  · trivial
  · refine Prog.Uses.call_bind trivial fun r => ?_
    cases r with
    | error err => trivial
    | ok nodeModel => exact h nodeModel

theorem agentHeartbeat_uses (secretKey : String) (info : HeartbeatInfo) :
    (Controller.agentHeartbeat secretKey info).Uses SideWork := by
  apply withNode_uses
  intro nodeModel
  exact Prog.Uses.call_bind trivial fun instant => Prog.Uses.call_bind trivial fun _ => trivial

theorem agentGetTasks_uses (secretKey : String) (since : Option Time) :
    (Controller.agentGetTasks secretKey since).Uses SideWork := by
  apply withNode_uses
  intro nodeModel
  exact Prog.Uses.call_bind trivial fun taskList => trivial

theorem agentReportTaskResult_uses (secretKey : String) (body : Except String TaskResult) :
    (Controller.agentReportTaskResult secretKey body).Uses SideWork := by
  apply withNode_uses
  intro nodeModel
  cases body with
  | error err => trivial
  | ok resultInfo =>
    refine Prog.Uses.call_bind trivial fun r => ?_
    cases r with
    | error err => trivial
    | ok taskModel =>
      exact Prog.Uses.call_bind trivial fun execTime => Prog.Uses.call_bind trivial fun _ => trivial

theorem agentCheckUpdate_uses (ext : Externals) (secretKey currentVersion : String) :
    (Controller.agentCheckUpdate ext secretKey currentVersion).Uses SideWork := by
  apply withNode_uses
  intro nodeModel
  trivial

theorem createEvents_uses (nodeID : Int) (events : List EventItem) :
    (createEvents nodeID events).Uses SideWork := by
  induction events with
  | nil => trivial
  | cons evt events ih =>
    -- the date of the event is a plain part of the loop
    have htime : evt.time.Uses SideWork := by
      unfold EventItem.time
      split
      · trivial
      · exact ⟨trivial, fun _ => trivial⟩
    exact htime.bind fun eventTime => Prog.Uses.call_bind trivial fun _ => ih

theorem agentReportEvents_uses (secretKey : String) (body : Except String (List EventItem)) :
    (Controller.agentReportEvents secretKey body).Uses SideWork := by
  apply withNode_uses
  intro nodeModel
  cases body with
  | error err => trivial
  | ok events => exact (createEvents_uses nodeModel.id events).bind fun _ => trivial

end AgentHandlers

/-! ## The user requests -/

section UserHandlers

theorem addOperationLog_usesAccountWork (userId targetId : Int) (opType remark : String) :
    (addOperationLog userId targetId opType remark).Uses AccountWork :=
  (addOperationLog_uses userId targetId opType remark).mono accountWork_of_plain

theorem generateToken_uses (userId : Int) : (generateToken userId).Uses AccountWork := by
  refine Prog.Uses.call_bind trivial fun r => ?_
  cases r with
  | error err => trivial
  | ok _ =>
    refine Prog.Uses.call_bind trivial fun token => Prog.Uses.call_bind trivial fun instant => ?_
    refine Prog.Uses.call_bind trivial fun r => ?_
    cases r <;> trivial

theorem userLogin_uses (ext : Externals) (clientIP loginAccount password : String) :
    (Controller.userLogin ext clientIP loginAccount password).Uses AccountWork := by
  refine Prog.Uses.call_bind trivial fun r => ?_
  cases r with
  | error err => trivial
  | ok user =>
    dsimp only
    split
    · trivial
    · refine (generateToken_uses user.id).bind fun r => ?_
      cases r with
      | error err => trivial
      | ok token => exact (addOperationLog_usesAccountWork _ _ _ _).bind fun _ => trivial

theorem registerNewUser_uses (u : User) : (registerNewUser u).Uses AccountWork := by
  unfold registerNewUser
  split
  · trivial
  · refine Prog.Uses.call_bind trivial fun r => ?_
    cases r with
    | ok found => trivial
    | error err =>
      cases err with
      | failure text => trivial
      | recordNotFound =>
        refine Prog.Uses.call_bind trivial fun r => ?_
        cases r <;> trivial

theorem addUser_uses (caller : Caller) (body : Except String NewUserForm) :
    (Controller.addUser caller body).Uses AccountWork := by
  unfold Controller.addUser
  cases body with
  | error err => trivial
  | ok form =>
    dsimp only
    split
    · trivial
    · split
      · trivial
      · refine Prog.Uses.call_bind trivial fun r => ?_
        cases r with
        | error err => trivial
        | ok hashedPassword =>
          refine (registerNewUser_uses _).bind fun r => ?_
          cases r with
          | error err => trivial
          | ok newUser => exact (addOperationLog_usesAccountWork _ _ _ _).bind fun _ => trivial

theorem editUser_uses (caller : Caller) (userId : Int) (body : Except String UserForm) :
    (Controller.editUser caller userId body).Uses AccountWork := by
  unfold Controller.editUser
  cases body with
  | error err => trivial
  | ok form =>
    refine Prog.Uses.call_bind trivial fun r => ?_
    cases r with
    | error err => trivial
    | ok userModel =>
      dsimp only
      split
      · trivial
      · split
        · trivial
        · refine Prog.Uses.call_bind trivial fun r => ?_
          cases r with
          | error err => trivial
          | ok hashedPassword =>
            refine Prog.Uses.call_bind trivial fun r => ?_
            cases r with
            | error err => trivial
            | ok _ => exact (addOperationLog_usesAccountWork _ _ _ _).bind fun _ => trivial

theorem deleteUser_uses (caller : Caller) (userId : Int) :
    (Controller.deleteUser caller userId).Uses AccountWork := by
  refine Prog.Uses.call_bind trivial fun r => ?_
  cases r with
  | error err => trivial
  | ok _ => exact (addOperationLog_usesAccountWork _ _ _ _).bind fun _ => trivial

end UserHandlers

end Gonitor.Requests
