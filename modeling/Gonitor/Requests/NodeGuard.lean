import Gonitor.Framework.AssuredProgram
import Gonitor.Requests.Tables

/-!
# What Happens to a Node Row

The handlers that write nodes save rows they have read: they change the name, the address and
what the agent reports, and `RegenerateNodeKey` the key; none changes the key of the row, its time
stamps or whether it is the master.  `NodeDuty` collects what they write, given what they have read.
In particular a property `P` of rows that depends on the columns kept alone is handed on: while only
rows with `P` are read and only keys with `D` drawn, only such rows are saved (`NodeGuard.duty`).

## Main Results

- `request_assured`: every request of the pool performs node operations of these kinds only.
-/

namespace Gonitor.Requests

open Gonitor.Model Gonitor.Server Gonitor.Controller AtomicProgram SoftDelete

/-- The operations that store rows with `P`, insert only edge nodes with a key in `D`, and delete
    only nodes in `Del`. -/
def NodeOk (P : Node → Prop) (D : String → Prop) (Del : Int → Prop) : Op → Prop
  | .db (.saveNode row) => P row
  | .db (.createNode row) => row.isMaster = false ∧ D row.secretKey
  | .db (.deleteNode id) => Del id
  | _ => True

/-- The rows read have `P`, the keys drawn are in `D`. -/
def NodeAns (P : Node → Prop) (D : String → Prop) : (o : Op) → o.Res → Prop
  | .db (.findNode _ _), .ok row => P row
  | .db (.findNodeWithKey _), .ok row => P row
  | .world (.randomString _), key => D key
  | _, _ => True

/-- `P` depends on the key, the stamps and the switch of a row alone, and allows for new keys. -/
structure NodeGuard (P : Node → Prop) (D : String → Prop) : Prop where
  kept : ∀ row row' : Node, row'.toStamps = row.toStamps → row'.isMaster = row.isMaster →
    row'.secretKey = row.secretKey → P row → P row'
  rekeyed : ∀ (row : Node) (key : String), row.isMaster = false → D key → P row →
    P { row with secretKey := key }

/-- The later row keeps the key, the stamps and the switch of the earlier one. -/
structure SameNode (row row' : Node) : Prop where
  stamps : row'.toStamps = row.toStamps
  isMaster : row'.isMaster = row.isMaster
  secretKey : row'.secretKey = row.secretKey

/-- The kinds of node operations that the handlers perform, each allowed by `ok` where the answers
    before it are as `ans` says.  Deletions are left to those who need them. -/
structure NodeDuty (ok : Op → Prop) (ans : (o : Op) → o.Res → Prop) : Prop where
  plain : ∀ o, KeepsNodes o → ok o
  created : ∀ row : Node, row.isMaster = false → ans (.world (.randomString 32)) row.secretKey →
    ok (.db (.createNode row))
  edited : ∀ id (row row' : Node), ans (.db (.findNode .nodeRequest id)) (.ok row) →
    row.isMaster = false → SameNode row row' → ok (.db (.saveNode row'))
  rekeyed : ∀ id (row : Node) key, ans (.db (.findNode .nodeRequest id)) (.ok row) →
    row.isMaster = false → ans (.world (.randomString 32)) key →
    ok (.db (.saveNode { row with secretKey := key }))
  pinged : ∀ key (row row' : Node), key ≠ "" → ans (.db (.findNodeWithKey key)) (.ok row) →
    SameNode row row' → ok (.db (.saveNode row'))

/-- While the live nodes have `P`, only rows with `P` are read. -/
theorem nodeAns_of_exec {ext : Externals} {P : Node → Prop} {D : String → Prop} {s s' : State}
    {o : Op} {c : Choice} {r : o.Res}
    (hrows : ∀ i node, s.db.node.byId i = some node → P node)
    (hdraw : ∀ n, o = .world (.randomString n) → D c.text) (h : exec ext o c s = some (r, s')) :
    NodeAns P D o r := by
  unfold NodeAns
  split
  · exact hrows _ _ (byId_of_findNode h)
  · -- the first live row with the key is found by its id, too
    have hfirst := first_of_findNodeWithKey h
    have hp := List.find?_some hfirst
    simp only [Bool.and_eq_true] at hp
    exact hrows _ _ (Table.byId_of_mem (List.mem_of_find?_eq_some hfirst) hp.1)
  · rw [eq_of_randomString h]
    exact hdraw _ rfl
  · trivial

section Guarded

variable {ext : Externals} {P : Node → Prop} {D : String → Prop} {Del : Int → Prop} {α : Type}

theorem nodeOk_of_keepsNodes (o : Op) (h : KeepsNodes o) : NodeOk P D Del o := by
  unfold KeepsNodes at h
  split at h
  case h_4 hcreate hsave hdelete =>
    unfold NodeOk
    split
    case h_1 row => exact (hsave row rfl).elim
    case h_2 row => exact (hcreate row rfl).elim
    case h_3 id => exact (hdelete id rfl).elim
    case h_4 => trivial
  all_goals exact h.elim

/-- What writes no node needs no guard. -/
theorem assured_of_keepsNodes {p : Program α} (hp : p.Uses KeepsNodes) :
    p.Assured (NodeOk P D Del) (NodeAns P D) :=
  .of_uses hp nodeOk_of_keepsNodes

/-- The handlers hand such a property on. -/
theorem NodeGuard.duty (h : NodeGuard P D) : NodeDuty (NodeOk P D Del) (NodeAns P D) where
  plain := nodeOk_of_keepsNodes
  created _ hmaster hkey := ⟨hmaster, hkey⟩
  edited _ row row' hrow _ hsame := h.kept row row' hsame.stamps hsame.isMaster hsame.secretKey hrow
  rekeyed _ row key hrow hmaster hkey := h.rekeyed row key hmaster hkey hrow
  pinged _ row row' _ hrow hsame :=
    h.kept row row' hsame.stamps hsame.isMaster hsame.secretKey hrow

end Guarded

section Handlers

variable {ext : Externals} {ok : Op → Prop} {ans : (o : Op) → o.Res → Prop} {α : Type}

theorem NodeDuty.uses (h : NodeDuty ok ans) {p : Program α} (hp : p.Uses KeepsNodes) :
    p.Assured ok ans := .of_uses hp h.plain

/-- The operation log is the last that a handler writes. -/
theorem NodeDuty.logged (h : NodeDuty ok ans) (userId targetId : Int) (opType remark : String)
    (reply : Reply) :
    (addOperationLog userId targetId opType remark >>= fun _ => pure reply).Assured ok ans := by
  have hlog := plain_keepsBoth (addOperationLog_uses userId targetId opType remark)
  exact (h.uses (keepsNodes hlog)).bind fun _ => trivial

/-! ## The node requests -/

theorem addNode_assured (h : NodeDuty ok ans) (caller : Caller) (body : Except String NodeForm) :
    (Controller.addNode caller body).Assured ok ans := by
  unfold Controller.addNode
  cases body with
  | error err => trivial
  | ok addInfo =>
    dsimp only
    split
    · trivial
    · refine .call_bind (h.plain _ trivial) fun r _ => ?_
      cases r with
      | ok node => trivial
      | error err =>
        -- the address is new: a key is drawn for the node
        refine .call_bind (h.plain _ trivial) fun secretKey hkey => ?_
        refine .call_bind (h.created _ rfl hkey) fun r _ => ?_
        cases r with
        | error err => trivial
        | ok nodeModel => exact h.logged _ _ _ _ _

theorem editNode_assured (h : NodeDuty ok ans) (caller : Caller) (nodeId : Int)
    (body : Except String NodeForm) : (Controller.editNode caller nodeId body).Assured ok ans := by
  unfold Controller.editNode
  cases body with
  | error err => trivial
  | ok editInfo =>
    refine .call_bind (h.plain _ trivial) fun r hr => ?_
    cases r with
    | error err => trivial
    | ok nodeModel =>
      dsimp only
      split
      · trivial
      · rename_i hmaster
        split
        · trivial
        · refine .call_bind (h.plain _ trivial) fun r _ => ?_
          cases r with
          | ok node => trivial
          | error err =>
            -- the name and the address are new, the rest is the row as it was read
            refine .call_bind
              (h.edited _ nodeModel _ hr (by simpa using hmaster) ⟨rfl, rfl, rfl⟩) fun r _ => ?_
            cases r with
            | error err => trivial
            | ok _ => exact h.logged _ _ _ _ _

theorem deleteNode_assured (h : NodeDuty ok ans)
    (hdel : ∀ id row, ans (.db (.findNode .nodeRequest id)) (.ok row) → row.isMaster = false →
      ok (.db (.deleteNode row.id)))
    (caller : Caller) (nodeId : Int) : (Controller.deleteNode caller nodeId).Assured ok ans := by
  refine .call_bind (h.plain _ trivial) fun r hr => ?_
  cases r with
  | error err => trivial
  | ok nodeModel =>
    dsimp only
    split
    · trivial
    · rename_i hmaster
      refine .call_bind (h.plain _ trivial) fun taskCount _ => ?_
      split
      · -- the node has tasks
        trivial
      · refine .call_bind (hdel nodeId nodeModel hr (by simpa using hmaster)) fun r _ => ?_
        cases r with
        | error err => trivial
        | ok _ => exact h.logged _ _ _ _ _

theorem regenerateNodeKey_assured (h : NodeDuty ok ans) (nodeId : Int) :
    (Controller.regenerateNodeKey nodeId).Assured ok ans := by
  refine .call_bind (h.plain _ trivial) fun r hr => ?_
  cases r with
  | error err => trivial
  | ok nodeModel =>
    dsimp only
    split
    · trivial
    · rename_i hmaster
      refine .call_bind (h.plain _ trivial) fun secretKey hkey => ?_
      refine .call_bind (h.rekeyed _ nodeModel secretKey hr (by simpa using hmaster) hkey)
        fun r _ => ?_
      cases r <;> trivial

theorem deployNodeWith_assured (h : NodeDuty ok ans) (caller : Caller) (form : DeployForm) :
    (deployNodeWith ext caller form).Assured ok ans := by
  refine .call_bind (h.plain _ trivial) fun r hr => ?_
  cases r with
  | error err => trivial
  | ok nodeModel =>
    dsimp only
    split
    · trivial
    · rename_i hmaster
      refine .call_bind (h.plain _ trivial) fun r _ => ?_
      cases r with
      | error err => trivial
      | ok _ =>
        refine (h.uses (collectRemoteSystemInfo_uses fun _ => trivial)).bind fun sysInfo => ?_
        refine (h.uses (executeDeployCommands_uses (fun _ => trivial) _ _)).bind fun deployLog => ?_
        -- minutes may have passed since the row was read
        refine .call_bind
          (h.edited _ nodeModel _ hr (by simpa using hmaster) ⟨rfl, rfl, rfl⟩) fun _ _ => ?_
        exact h.logged _ _ _ _ _

theorem deployNode_assured (h : NodeDuty ok ans) (caller : Caller)
    (body : Except String DeployForm) :
    (Controller.deployNode ext caller body).Assured ok ans := by
  unfold Controller.deployNode
  cases body with
  | error err => trivial
  | ok form =>
    dsimp only
    repeat' split
    all_goals first | trivial | exact deployNodeWith_assured h caller form

theorem deployNewNodeWith_assured (h : NodeDuty ok ans) (caller : Caller) (form : DeployNewForm) :
    (deployNewNodeWith ext caller form).Assured ok ans := by
  refine .call_bind (h.plain _ trivial) fun r _ => ?_
  cases r with
  | ok node => trivial
  | error err =>
    refine .call_bind (h.plain _ trivial) fun r _ => ?_
    cases r with
    | error err => trivial
    | ok _ =>
      refine (h.uses (collectRemoteSystemInfo_uses fun _ => trivial)).bind fun sysInfo => ?_
      -- the key is drawn after the remote system has answered
      refine .call_bind (h.plain _ trivial) fun secretKey hkey => ?_
      refine .call_bind (h.created _ rfl hkey) fun r _ => ?_
      cases r with
      | error err => trivial
      | ok nodeModel =>
        refine (h.uses (executeDeployCommands_uses (fun _ => trivial) _ _)).bind fun deployLog => ?_
        exact h.logged _ _ _ _ _

theorem deployNewNode_assured (h : NodeDuty ok ans) (caller : Caller)
    (body : Except String DeployNewForm) :
    (Controller.deployNewNode ext caller body).Assured ok ans := by
  unfold Controller.deployNewNode
  cases body with
  | error err => trivial
  | ok form =>
    dsimp only
    repeat' split
    all_goals first | trivial | exact deployNewNodeWith_assured h caller form

/-! ## The requests of the agents -/

theorem withNode_assured (h : NodeDuty ok ans) (secretKey : String)
    {answer : Node → Program Reply} (hanswer : ∀ nodeModel, secretKey ≠ "" →
      ans (.db (.findNodeWithKey secretKey)) (.ok nodeModel) → (answer nodeModel).Assured ok ans) :
    (withNode secretKey answer).Assured ok ans := by
  unfold withNode
  split
  · trivial
  · rename_i hkey
    refine .call_bind (h.plain _ trivial) fun r hr => ?_
    cases r with
    | error err => trivial
    | ok nodeModel => exact hanswer nodeModel hkey hr

theorem agentHeartbeat_assured (h : NodeDuty ok ans) (secretKey : String) (info : HeartbeatInfo) :
    (Controller.agentHeartbeat secretKey info).Assured ok ans := by
  apply withNode_assured h
  intro nodeModel hkey hnode
  refine .call_bind (h.plain _ trivial) fun instant _ => ?_
  -- the whole row is saved, with what the agent says of its system
  refine .call_bind (h.pinged secretKey nodeModel _ hkey hnode ⟨rfl, rfl, rfl⟩) fun _ _ => ?_
  trivial

theorem agentGetTasks_assured (h : NodeDuty ok ans) (secretKey : String) (since : Option Time) :
    (Controller.agentGetTasks secretKey since).Assured ok ans := by
  apply withNode_assured h
  intro nodeModel _ _
  exact .call_bind (h.plain _ trivial) fun taskList _ => trivial

theorem agentReportTaskResult_assured (h : NodeDuty ok ans) (secretKey : String)
    (body : Except String TaskResult) :
    (Controller.agentReportTaskResult secretKey body).Assured ok ans := by
  apply withNode_assured h
  intro nodeModel _ _
  cases body with
  | error err => trivial
  | ok resultInfo =>
    refine .call_bind (h.plain _ trivial) fun r _ => ?_
    cases r with
    | error err => trivial
    | ok taskModel =>
      refine .call_bind (h.plain _ trivial) fun execTime _ => ?_
      exact .call_bind (h.plain _ trivial) fun _ _ => trivial

theorem agentCheckUpdate_assured (h : NodeDuty ok ans) (secretKey currentVersion : String) :
    (Controller.agentCheckUpdate ext secretKey currentVersion).Assured ok ans := by
  apply withNode_assured h
  intro nodeModel _ _
  trivial

theorem createEvents_keepsNodes (nodeID : Int) (events : List EventItem) :
    (createEvents nodeID events).Uses KeepsNodes := by
  induction events with
  | nil => trivial
  | cons evt events ih =>
    have htime : evt.time.Uses KeepsNodes := by
      unfold EventItem.time
      split
      · trivial
      · exact ⟨trivial, fun _ => trivial⟩
    exact htime.bind fun eventTime => Prog.Uses.call_bind trivial fun _ => ih

theorem agentReportEvents_assured (h : NodeDuty ok ans) (secretKey : String)
    (body : Except String (List EventItem)) :
    (Controller.agentReportEvents secretKey body).Assured ok ans := by
  apply withNode_assured h
  intro nodeModel _ _
  cases body with
  | error err => trivial
  | ok events =>
    exact (h.uses (createEvents_keepsNodes nodeModel.id events)).bind fun _ => trivial

/-! ## All requests -/

/-- **Every request** of the pool performs node operations of these kinds only. -/
theorem request_assured (h : NodeDuty ok ans)
    (hdel : ∀ id row, ans (.db (.findNode .nodeRequest id)) (.ok row) → row.isMaster = false →
      ok (.db (.deleteNode row.id)))
    (caller : Caller) (req : Request) (hreq : ∀ body, req ≠ .importTasks body) :
    (req.handle ext caller).Assured ok ans := by
  have haccount : ∀ p : Program Reply, p.Uses AccountWork → p.Assured ok ans :=
    fun p hp => h.uses (keepsNodes (hp.mono keepsBoth_of_accountWork))
  cases req with
  | addTask body => exact h.uses ((addTask_taskWork caller body).mono keepsNodes_of_taskWork)
  | editTask taskId body => exact h.uses ((editTask_taskWork caller taskId body).mono keepsNodes_of_taskWork)
  | deleteTask taskId => exact h.uses ((deleteTask_taskWork caller taskId).mono keepsNodes_of_taskWork)
  | startTask taskId => exact h.uses ((startTask_taskWork caller taskId).mono keepsNodes_of_taskWork)
  | stopTask taskId => exact h.uses ((stopTask_taskWork caller taskId).mono keepsNodes_of_taskWork)
  | startOnceTask taskId => exact h.uses (keepsNodes (startOnceTask_keepsBoth caller taskId))
  | importTasks body => exact absurd rfl (hreq body)
  | addNode body => exact addNode_assured h caller body
  | editNode nodeId body => exact editNode_assured h caller nodeId body
  | deleteNode nodeId => exact deleteNode_assured h hdel caller nodeId
  | regenerateNodeKey nodeId => exact regenerateNodeKey_assured h nodeId
  | deployNode body => exact deployNode_assured h caller body
  | deployNewNode body => exact deployNewNode_assured h caller body
  | agentHeartbeat secretKey info => exact agentHeartbeat_assured h secretKey info
  | agentGetTasks secretKey since => exact agentGetTasks_assured h secretKey since
  | agentReportTaskResult secretKey body => exact agentReportTaskResult_assured h secretKey body
  | agentCheckUpdate secretKey version => exact agentCheckUpdate_assured h secretKey version
  | agentReportEvents secretKey body => exact agentReportEvents_assured h secretKey body
  | userLogin loginAccount password =>
    exact haccount _ (userLogin_uses ext caller.clientIP loginAccount password)
  | addUser body => exact haccount _ (addUser_uses caller body)
  | editUser userId body => exact haccount _ (editUser_uses caller userId body)
  | deleteUser userId => exact haccount _ (deleteUser_uses caller userId)

end Handlers

end Gonitor.Requests
