import Gonitor.Framework.LockstepProgram
import Gonitor.Requests.Tables
import Gonitor.Requests.Guarantees

/-!
# The Isolation of the Agents

An agent is known by its key.  With the key of a node it reads and writes what belongs to this node
and nothing else, whatever it sends.

- `AgentOk`: the operations an agent request performs, and `AgentAns` what it is answered.
- `Written`: what may differ after requests of one agent.
- `Alike`: two states that such requests cannot tell apart.

## Main Results

- `agentRequest_meets`: every agent request keeps to its node.
- `agents_isolated`: sequences of requests with the key of one node.
-/

namespace Gonitor.Requests

open Gonitor.Model Gonitor.Server Gonitor.Controller AtomicProgram SoftDelete

/-! ## The node of a request -/

/-- The key an agent request presents. -/
def Request.agentKey : Request → Option String
  | .agentHeartbeat secretKey _ | .agentGetTasks secretKey _ | .agentReportTaskResult secretKey _
  | .agentCheckUpdate secretKey _ | .agentReportEvents secretKey _ => some secretKey
  | _ => none

/-- The node an agent request with this key acts for. -/
def agentNode (s : State) (secretKey : String) : Option Node :=
  if secretKey = "" then none else s.db.node.first (fun n => n.secretKey == secretKey)

section Keys

variable {ext : Externals} {K : State → Op → Choice → Prop} {s : State} {secretKey : String}

/-- An agent request looks its node up first: without one it is refused, otherwise it goes on with
    the node of its key. -/
theorem withNode_ensures {answer : Node → Program Reply} {Q : Reply → State → Prop}
    (hrefused : ∀ code message now, Q (.response (error code message)) { s with clock := now })
    (hanswer : ∀ node now, agentNode s secretKey = some node →
      Ensures ext K (answer node) Q { s with clock := now }) :
    Ensures ext K (withNode secretKey answer) Q s := by
  unfold withNode
  split
  · exact Ensures.pure (hrefused _ _ s.clock)
  · rename_i hkey
    refine Ensures.op fun c r s' _ hexec => ?_
    cases r with
    | error err =>
      obtain ⟨-, -, rfl⟩ := exec_db hexec
      exact Ensures.pure (hrefused _ _ _)
    | ok node =>
      have hfirst := first_of_findNodeWithKey hexec
      obtain ⟨-, -, rfl⟩ := exec_db hexec
      apply hanswer node
      rw [agentNode, if_neg hkey]
      exact hfirst

theorem agentNode_eq_none : agentNode s secretKey = none ↔
    secretKey = "" ∨ ∀ row ∈ s.db.node.rows, live row = true → row.secretKey ≠ secretKey := by
  unfold agentNode
  split
  · simp [*]
  · rename_i hkey
    simp only [hkey, false_or, Table.first, List.find?_eq_none]
    simp

/-- Every agent request begins so. -/
theorem handle_eq_withNode {req : Request} (ext : Externals) (caller : Caller)
    (hreq : req.agentKey = some secretKey) :
    ∃ answer, req.handle ext caller = withNode secretKey answer := by
  cases req with
  | agentHeartbeat _ _ | agentGetTasks _ _ | agentReportTaskResult _ _ | agentCheckUpdate _ _
  | agentReportEvents _ _ =>
    cases hreq
    exact ⟨_, rfl⟩
  | _ => cases hreq

/-- A request with an empty key, or one of no live node, is refused. -/
theorem refused_of_agentNode {req : Request} (caller : Caller)
    (hreq : req.agentKey = some secretKey) (hnode : agentNode s secretKey = none) :
    Ensures ext K (req.handle ext caller) (fun reply s' =>
      (∃ code message, reply = .response (error code message)) ∧
        ∃ now, s' = { s with clock := now }) s := by
  obtain ⟨answer, hanswer⟩ := handle_eq_withNode ext caller hreq
  rw [hanswer]
  apply withNode_ensures
  · intro code message now
    exact ⟨⟨code, message, rfl⟩, now, rfl⟩
  · intro node now hsome
    rw [hnode] at hsome
    cases hsome

end Keys

/-- The live tasks of a node. -/
def assigned (tasks : Table Task) (nodeID : Int) : List Task :=
  tasks.find (fun t => t.nodeID == nodeID)

/-- What a request knows of its node: the id, the key and the name, which it does not change, and
    the tasks assigned to it. -/
structure Agent where
  id : Int
  key : String
  name : String
  tasks : List Task

/-- A row of the node. -/
structure Agent.Owns (a : Agent) (row : Node) : Prop where
  id : row.id = a.id
  key : row.secretKey = a.key
  name : row.name = a.name
  live : live row = true

/-- The operations of an agent request. -/
def AgentOk (a : Agent) : Op → Prop
  | .db (.findNodeWithKey secretKey) => secretKey = a.key
  | .db (.saveNode row) => a.Owns row
  | .db (.nodeTasks nodeID _) => nodeID = a.id
  | .db (.findNodeTask _ nodeID) => nodeID = a.id
  | .db (.createReportLog row) => ∃ t ∈ a.tasks, t.id = row.taskId
  | .db (.createNodeEvent row) => row.nodeID = a.id
  | .world .now => True
  | _ => False

/-- What they are answered. -/
def AgentAns (a : Agent) : (o : Op) → o.Res → Prop
  | .db (.findNodeWithKey _), .ok row => a.Owns row
  | .db (.nodeTasks _ _), list => ∀ t ∈ list, t ∈ a.tasks
  | .db (.findNodeTask id _), .ok t => t.id = id ∧ t ∈ a.tasks
  | _, _ => True

/-- The operations whose answer, with the generated key, is dropped. -/
def Dropped : Op → Prop
  | .db (.createReportLog _) | .db (.createNodeEvent _) => True
  | _ => False

/-- A reply that shows no task but those. -/
def ShowsOnly (tasks : List Task) : Reply → Prop
  | .response r =>
    match r.data with
    | .tasks list => ∀ t ∈ list, t ∈ tasks
    | .task _ | .payload _ | .imported _ => False
    | _ => True
  | _ => True

/-! ## The requests -/

section Requests

variable {ext : Externals} {a : Agent}

theorem withNode_meets {answer : Node → Program Reply}
    (h : ∀ nodeModel, a.Owns nodeModel →
      (answer nodeModel).Meets (AgentOk a) Dropped (AgentAns a) (ShowsOnly a.tasks)) :
    (withNode a.key answer).Meets (AgentOk a) Dropped (AgentAns a) (ShowsOnly a.tasks) := by
  unfold withNode
  split
  · trivial
  · refine .call_bind rfl id fun r hr => ?_
    cases r with
    | error err => trivial
    | ok nodeModel => exact h nodeModel hr

theorem agentHeartbeat_meets (info : HeartbeatInfo) :
    (Controller.agentHeartbeat a.key info).Meets (AgentOk a) Dropped (AgentAns a) (ShowsOnly a.tasks) := by
  apply withNode_meets
  intro nodeModel hnode
  refine .call_bind trivial id fun instant _ => ?_
  -- the row saved has the key, the name and the id of the row read
  exact .drop_bind ⟨hnode.id, hnode.key, hnode.name, hnode.live⟩ trivial

theorem agentGetTasks_meets (since : Option Time) :
    (Controller.agentGetTasks a.key since).Meets (AgentOk a) Dropped (AgentAns a) (ShowsOnly a.tasks) := by
  apply withNode_meets
  intro nodeModel hnode
  exact .call_bind hnode.id id fun taskList htasks => htasks

theorem agentReportTaskResult_meets (body : Except String TaskResult) :
    (Controller.agentReportTaskResult a.key body).Meets (AgentOk a) Dropped (AgentAns a)
      (ShowsOnly a.tasks) := by
  apply withNode_meets
  intro nodeModel hnode
  cases body with
  | error err => trivial
  | ok resultInfo =>
    refine .call_bind hnode.id id fun r hr => ?_
    cases r with
    | error err => trivial
    | ok taskModel =>
      refine .call_bind trivial id fun execTime _ => ?_
      exact .drop_bind ⟨taskModel, hr.2, hr.1⟩ trivial

theorem agentCheckUpdate_meets (currentVersion : String) :
    (Controller.agentCheckUpdate ext a.key currentVersion).Meets (AgentOk a) Dropped (AgentAns a)
      (ShowsOnly a.tasks) := by
  apply withNode_meets
  intro nodeModel _
  trivial

theorem createEvents_meets (events : List EventItem) :
    (createEvents a.id events).Meets (AgentOk a) Dropped (AgentAns a) fun _ => True := by
  induction events with
  | nil => trivial
  | cons evt events ih =>
    have htime : evt.time.Meets (AgentOk a) Dropped (AgentAns a) fun _ => True := by
      unfold EventItem.time
      split
      · trivial
      · exact ⟨trivial, fun h => h.elim, fun _ _ => trivial⟩
    exact htime.bind fun eventTime _ => .drop_bind rfl ih

theorem agentReportEvents_meets (body : Except String (List EventItem)) :
    (Controller.agentReportEvents a.key body).Meets (AgentOk a) Dropped (AgentAns a)
      (ShowsOnly a.tasks) := by
  apply withNode_meets
  intro nodeModel hnode
  cases body with
  | error err => trivial
  | ok events =>
    have hevents := createEvents_meets (a := a) events
    rw [← hnode.id] at hevents
    exact hevents.bind fun _ _ => trivial

/-- **Every agent request** keeps to its node. -/
theorem agentRequest_meets {req : Request} (hreq : req.agentKey = some a.key) (caller : Caller) :
    (req.handle ext caller).Meets (AgentOk a) Dropped (AgentAns a) (ShowsOnly a.tasks) := by
  cases req with
  | agentHeartbeat secretKey info =>
    cases hreq
    exact agentHeartbeat_meets info
  | agentGetTasks secretKey since =>
    cases hreq
    exact agentGetTasks_meets since
  | agentReportTaskResult secretKey body =>
    cases hreq
    exact agentReportTaskResult_meets body
  | agentCheckUpdate secretKey currentVersion =>
    cases hreq
    exact agentCheckUpdate_meets currentVersion
  | agentReportEvents secretKey body =>
    cases hreq
    exact agentReportEvents_meets body
  | _ => cases hreq

end Requests

/-! ## What an agent can reach -/

/-- The keys of the live nodes are pairwise distinct. -/
def DistinctKeys (nodes : Table Node) : Prop :=
  ∀ row ∈ nodes.rows, ∀ row' ∈ nodes.rows, live row = true → live row' = true →
    row.secretKey = row'.secretKey → row = row'

/-- The unique index on `node.name`. -/
def UniqueNames (nodes : Table Node) : Prop :=
  ∀ row ∈ nodes.rows, ∀ row' ∈ nodes.rows, row.name = row'.name → row = row'

/-- A running server whose database holds the node of the agent and the tasks assigned to it. -/
structure Hosts (a : Agent) (s : State) : Prop where
  running : s.os.crashed = false
  keys : DistinctKeys s.db.node
  names : UniqueNames s.db.node
  node : ∃ row, s.db.node.byId a.id = some row ∧ a.Owns row
  tasks : assigned s.db.task a.id = a.tasks

section Reads

variable {a : Agent} {nodes nodes' : Table Node} {tasks : Table Task}

/-- The key finds the node. -/
theorem first_of_key {row : Node} (hkeys : DistinctKeys nodes) (hmem : row ∈ nodes.rows)
    (hlive : live row = true) :
    nodes.first (fun n => n.secretKey == row.secretKey) = some row := by
  cases hfirst : nodes.first (fun n => n.secretKey == row.secretKey) with
  | none =>
    have hnone := List.find?_eq_none.mp hfirst row hmem
    simp [hlive] at hnone
  | some found =>
    have hp := List.find?_some hfirst
    simp only [Bool.and_eq_true, beq_iff_eq] at hp
    rw [hkeys found (List.mem_of_find?_eq_some hfirst) row hmem hp.1 hlive hp.2]

/-- The tasks a node is answered are among those assigned to it. -/
theorem find_assigned (nodeID : Int) (since : Option Time) :
    tasks.find (fun t => t.nodeID == nodeID && updatedAfter since t) =
      (assigned tasks nodeID).filter (updatedAfter since) := by
  simp only [Table.find, assigned, List.filter_filter]
  congr 1
  funext t
  cases live t <;> cases t.nodeID == nodeID <;> simp

theorem first_assigned (id nodeID : Int) :
    tasks.first (fun t => t.id == id && t.nodeID == nodeID) =
      (assigned tasks nodeID).find? (fun t => t.id == id) := by
  simp only [Table.first, Table.find, assigned, List.find?_filter]
  congr 1
  funext t
  cases live t <;> cases t.nodeID == nodeID <;> simp [beq_eq_decide]

/-- A row of the node can be saved: no other node has its name. -/
theorem nodeNameFree_of_owns {row row₀ : Node} (hnames : UniqueNames nodes)
    (hfound : nodes.byId a.id = some row₀) (howns₀ : a.Owns row₀) (howns : a.Owns row) :
    nodeNameFree nodes row = true := by
  obtain ⟨hmem, -, -⟩ := Table.mem_of_byId hfound
  apply List.all_eq_true.mpr
  intro n hn
  rcases eq_or_ne n.name row.name with heq | hne
  · have hsame := hnames n hn row₀ hmem (by rw [heq, howns.name, howns₀.name])
    simp [hsame, howns₀.id, howns.id]
  · simp [hne]

/-- Where the node is, a row of it can be saved. -/
theorem save_of_owns {row row₀ : Node} (now : Time) (hfound : nodes.byId a.id = some row₀)
    (howns : a.Owns row) : ∃ nodes', nodes.save row now = some nodes' := by
  cases hsave : nodes.save row now with
  | none =>
    have hnone := Table.byId_of_save_eq_none hsave
    rw [show rowId row = a.id from howns.id, hfound] at hnone
    cases hnone
  | some nodes' => exact ⟨nodes', rfl⟩

/-- A row of the node, saved, changes no key and no name. -/
theorem distinctKeys_save {row row₀ : Node} {now : Time} (hkeys : DistinctKeys nodes)
    (hfound : nodes.byId a.id = some row₀) (howns₀ : a.Owns row₀) (howns : a.Owns row)
    (hsave : nodes.save row now = some nodes') : DistinctKeys nodes' := by
  obtain ⟨hmem, -, -⟩ := Table.mem_of_byId hfound
  -- a row with the key of the node has the id of the node
  have hother : ∀ x ∈ nodes.rows, live x = true → rowId x ≠ rowId row →
      x.secretKey ≠ a.key := by
    intro x hx hlive hne heq
    have hsame := hkeys x hx row₀ hmem hlive howns₀.live (heq.trans howns₀.key.symm)
    rw [hsame] at hne
    exact hne (howns₀.id.trans howns.id.symm)
  intro x hx y hy hlx hly heq
  rcases Table.mem_of_save hsave hx with rfl | ⟨hx', hnx⟩ <;>
    rcases Table.mem_of_save hsave hy with rfl | ⟨hy', hny⟩
  · rfl
  · exact absurd (heq.symm.trans howns.key) (hother y hy' hly hny)
  · exact absurd (heq.trans howns.key) (hother x hx' hlx hnx)
  · exact hkeys x hx' y hy' hlx hly heq

theorem uniqueNames_save {row row₀ : Node} {now : Time} (hnames : UniqueNames nodes)
    (hfound : nodes.byId a.id = some row₀) (howns₀ : a.Owns row₀) (howns : a.Owns row)
    (hsave : nodes.save row now = some nodes') : UniqueNames nodes' := by
  obtain ⟨hmem, -, -⟩ := Table.mem_of_byId hfound
  have hother : ∀ x ∈ nodes.rows, rowId x ≠ rowId row → x.name ≠ a.name := by
    intro x hx hne heq
    have hsame := hnames x hx row₀ hmem (heq.trans howns₀.name.symm)
    rw [hsame] at hne
    exact hne (howns₀.id.trans howns.id.symm)
  intro x hx y hy heq
  rcases Table.mem_of_save hsave hx with rfl | ⟨hx', hnx⟩ <;>
    rcases Table.mem_of_save hsave hy with rfl | ⟨hy', hny⟩
  · rfl
  · exact absurd (heq.symm.trans howns.name) (hother y hy' hny)
  · exact absurd (heq.trans howns.name) (hother x hx' hnx)
  · exact hnames x hx' y hy' heq

end Reads

/-! ## What an agent writes -/

/-- What has changed from the earlier state to the later one belongs to the node: its row, new log
    rows of its tasks, and new events of its own. -/
structure Written (a : Agent) (s s' : State) (logs : List TaskLog) (events : List NodeEvent) :
    Prop where
  task : s'.db.task = s.db.task
  user : s'.db.user = s.db.user
  userToken : s'.db.userToken = s.db.userToken
  operationLog : s'.db.operationLog = s.db.operationLog
  savepoint : s'.db.savepoint = s.db.savepoint
  sched : s'.sched = s.sched
  os : s'.os = s.os
  node : ∀ i, i ≠ a.id → s'.db.node.row? i = s.db.node.row? i
  taskLog : s'.db.taskLog.rows = s.db.taskLog.rows ++ logs
  nodeEvent : s'.db.nodeEvent.rows = s.db.nodeEvent.rows ++ events
  logged : ∀ log ∈ logs, ∃ t ∈ a.tasks, t.id = log.taskId
  reported : ∀ event ∈ events, event.nodeID = a.id

/-- A row without its generated key. -/
def withoutId {ρ : Type} [Row ρ Time] (r : ρ) : ρ := setStamps r { stamps r with id := 0 }

/-- The same has been written in two pairs of states, up to the generated keys. -/
structure WrittenAlike (a : Agent) (s₀ t₀ s t : State) : Prop where
  node : s.db.node.byId a.id = t.db.node.byId a.id
  rows : ∃ logs events logs' events', Written a s₀ s logs events ∧ Written a t₀ t logs' events' ∧
    logs.map withoutId = logs'.map withoutId ∧ events.map withoutId = events'.map withoutId

/-- Two states an agent cannot tell apart, after it has written alike in both. -/
structure Alike (a : Agent) (s₀ t₀ s t : State) : Prop where
  left : Hosts a s
  right : Hosts a t
  clock : s.clock = t.clock
  written : WrittenAlike a s₀ t₀ s t

section Writes

variable {a : Agent} {s s' t t' s₀ t₀ : State} {logs : List TaskLog} {events : List NodeEvent}

theorem Written.refl (a : Agent) (s : State) : Written a s s [] [] where
  task := rfl
  user := rfl
  userToken := rfl
  operationLog := rfl
  savepoint := rfl
  sched := rfl
  os := rfl
  node _ _ := rfl
  taskLog := (List.append_nil _).symm
  nodeEvent := (List.append_nil _).symm
  logged := by simp
  reported := by simp

/-- Time passes. -/
theorem Hosts.tick (h : Hosts a s) (now : Time) : Hosts a { s with clock := now } :=
  ⟨h.running, h.keys, h.names, h.node, h.tasks⟩

theorem Written.tick (h : Written a s s' logs events) (now : Time) :
    Written a s { s' with clock := now } logs events :=
  ⟨h.task, h.user, h.userToken, h.operationLog, h.savepoint, h.sched, h.os, h.node, h.taskLog,
    h.nodeEvent, h.logged, h.reported⟩

theorem Alike.tick (h : Alike a s₀ t₀ s t) (elapsed : Nat) :
    Alike a s₀ t₀ { s with clock := s.clock + elapsed } { t with clock := t.clock + elapsed } := by
  obtain ⟨logs, events, logs', events', hs, ht, hlogs, hevents⟩ := h.written.rows
  refine ⟨h.left.tick _, h.right.tick _, ?_, h.written.node, ?_⟩
  · exact congrArg (· + (elapsed : Int)) h.clock
  · exact ⟨logs, events, logs', events', hs.tick _, ht.tick _, hlogs, hevents⟩

/-- The row of the node is saved. -/
theorem Hosts.save {row : Node} {now : Time} {nodes : Table Node} (h : Hosts a s)
    (howns : a.Owns row) (hsave : s.db.node.save row now = some nodes) :
    Hosts a { s with db := { s.db with node := nodes } } := by
  obtain ⟨row₀, hfound, howns₀⟩ := h.node
  have hid : rowId row = a.id := howns.id
  refine ⟨h.running, distinctKeys_save h.keys hfound howns₀ howns hsave,
    uniqueNames_save h.names hfound howns₀ howns hsave, ⟨Table.saved row now, ?_, ?_⟩, h.tasks⟩
  · show nodes.byId a.id = _
    rw [Table.byId_save hsave howns.live, if_pos hid.symm]
  · refine ⟨howns.id, howns.key, howns.name, ?_⟩
    rw [Table.live_saved, howns.live]

theorem Written.save {row : Node} {now : Time} {nodes : Table Node}
    (h : Written a s s' logs events) (howns : a.Owns row)
    (hsave : s'.db.node.save row now = some nodes) :
    Written a s { s' with db := { s'.db with node := nodes } } logs events :=
  { h with
    node := fun i hi => by
      rw [show ({ s' with db := { s'.db with node := nodes } } : State).db.node = nodes from rfl,
        Table.row?_save hsave, if_neg fun heq => hi (heq.trans howns.id)]
      exact h.node i hi }

/-- A log row of one of its tasks is added. -/
theorem Written.log {log : TaskLog} (now : Time) (h : Written a s s' logs events)
    (hlog : ∃ t ∈ a.tasks, t.id = log.taskId) :
    Written a s { s' with db := { s'.db with taskLog := s'.db.taskLog.create log now } }
      (logs ++ [s'.db.taskLog.inserted log now]) events :=
  { h with
    taskLog := by
      show s'.db.taskLog.rows ++ _ = _
      rw [h.taskLog, List.append_assoc]
    logged := by
      intro x hx
      rcases List.mem_append.mp hx with hold | hnew
      · exact h.logged x hold
      · rw [List.mem_singleton.mp hnew]
        exact hlog }

/-- An event of the node is added. -/
theorem Written.event {event : NodeEvent} (now : Time) (h : Written a s s' logs events)
    (hevent : event.nodeID = a.id) :
    Written a s { s' with db := { s'.db with nodeEvent := s'.db.nodeEvent.create event now } }
      logs (events ++ [s'.db.nodeEvent.inserted event now]) :=
  { h with
    nodeEvent := by
      show s'.db.nodeEvent.rows ++ _ = _
      rw [h.nodeEvent, List.append_assoc]
    reported := by
      intro x hx
      rcases List.mem_append.mp hx with hold | hnew
      · exact h.reported x hold
      · rw [List.mem_singleton.mp hnew]
        exact hevent }

section Steps

variable {ext ext' : Externals} {c : Choice}

/-- An operation of the database that is answered alike and leaves such states. -/
theorem Alike.db {o : DbOp} (h : Alike a s₀ t₀ s t) (r r' : o.Res) {ds dt : Database}
    (hs : o.exec c (s.clock + c.elapsed) s.db = (r, ds))
    (ht : o.exec c (s.clock + c.elapsed) t.db = (r', dt))
    (hr : SameAnswer Dropped (AgentAns a) (.db o) r r')
    (h' : Alike a s₀ t₀ { s with db := ds } { t with db := dt }) :
    Together (SameAnswer Dropped (AgentAns a) (.db o)) (Alike a s₀ t₀)
      (exec ext (.db o) c s) (exec ext' (.db o) c t) := by
  rw [exec_of_db o h.left.running, exec_of_db o h.right.running, ← h.clock, hs, ht]
  have htick := h'.tick c.elapsed
  rw [show ({ t with db := dt } : State).clock = s.clock from h.clock.symm] at htick
  exact ⟨hr, htick⟩

/-- The row of the node is saved in both. -/
theorem Alike.save {row : Node} {now : Time} {ns nt : Table Node} (h : Alike a s₀ t₀ s t)
    (howns : a.Owns row) (hs : s.db.node.save row now = some ns)
    (ht : t.db.node.save row now = some nt) :
    Alike a s₀ t₀ { s with db := { s.db with node := ns } }
      { t with db := { t.db with node := nt } } := by
  obtain ⟨logs, events, logs', events', hws, hwt, hlogs, hevents⟩ := h.written.rows
  have hid : rowId row = a.id := howns.id
  refine ⟨h.left.save howns hs, h.right.save howns ht, h.clock, ?_, ?_⟩
  · show ns.byId a.id = nt.byId a.id
    rw [Table.byId_save hs howns.live, Table.byId_save ht howns.live, if_pos hid.symm,
      if_pos hid.symm]
  · exact ⟨logs, events, logs', events', hws.save howns hs, hwt.save howns ht, hlogs, hevents⟩

/-- A log row is added in both: the rows differ in their generated keys alone. -/
theorem Alike.log {log : TaskLog} (h : Alike a s₀ t₀ s t)
    (hlog : ∃ task ∈ a.tasks, task.id = log.taskId) (now : Time) :
    Alike a s₀ t₀ { s with db := { s.db with taskLog := s.db.taskLog.create log now } }
      { t with db := { t.db with taskLog := t.db.taskLog.create log now } } := by
  obtain ⟨logs, events, logs', events', hws, hwt, hlogs, hevents⟩ := h.written.rows
  have hl := h.left
  have hr := h.right
  refine ⟨⟨hl.running, hl.keys, hl.names, hl.node, hl.tasks⟩,
    ⟨hr.running, hr.keys, hr.names, hr.node, hr.tasks⟩, h.clock, h.written.node, ?_⟩
  refine ⟨_, events, _, events', hws.log now hlog, hwt.log now hlog, ?_, hevents⟩
  rw [List.map_append, List.map_append, hlogs]
  rfl

/-- So is an event. -/
theorem Alike.event {event : NodeEvent} (h : Alike a s₀ t₀ s t) (hevent : event.nodeID = a.id)
    (now : Time) :
    Alike a s₀ t₀ { s with db := { s.db with nodeEvent := s.db.nodeEvent.create event now } }
      { t with db := { t.db with nodeEvent := t.db.nodeEvent.create event now } } := by
  obtain ⟨logs, events, logs', events', hws, hwt, hlogs, hevents⟩ := h.written.rows
  have hl := h.left
  have hr := h.right
  refine ⟨⟨hl.running, hl.keys, hl.names, hl.node, hl.tasks⟩,
    ⟨hr.running, hr.keys, hr.names, hr.node, hr.tasks⟩, h.clock, h.written.node, ?_⟩
  refine ⟨logs, _, logs', _, hws.event now hevent, hwt.event now hevent, hlogs, ?_⟩
  rw [List.map_append, List.map_append, hevents]
  rfl

/-- What a statement does that cannot violate a constraint. -/
theorem statement_some {α : Type} (d d' : Database) (r : α) :
    statement c d (some (r, d')) =
      if c.fail then (.error (.failure c.text), d) else (.ok r, d') := by
  unfold statement
  split <;> rfl

/-- **One operation** of an agent request is answered alike in such states, and leaves them so. -/
theorem Alike.step {o : Op} (h : Alike a s₀ t₀ s t) (ho : AgentOk a o) :
    Together (SameAnswer Dropped (AgentAns a) o) (Alike a s₀ t₀) (exec ext o c s)
      (exec ext' o c t) := by
  obtain ⟨row₀, hrow, howns₀⟩ := h.left.node
  have hrow' : t.db.node.byId a.id = some row₀ := by rw [← h.written.node, hrow]
  obtain ⟨hmem, -, hlive⟩ := Table.mem_of_byId hrow
  obtain ⟨hmem', -, -⟩ := Table.mem_of_byId hrow'
  have htasks : assigned t.db.task a.id = assigned s.db.task a.id := by
    rw [h.right.tasks, h.left.tasks]
  unfold AgentOk at ho
  split at ho
  case h_1 secretKey =>
    -- both runs find the node that has the key
    have hfirst := first_of_key h.left.keys hmem hlive
    have hfirst' := first_of_key h.right.keys hmem' hlive
    rw [howns₀.key, ← ho] at hfirst hfirst'
    refine h.db (query c (some row₀)) _ ?_ ?_ ⟨?_, .inr rfl⟩ h
    · simp only [DbOp.exec, hfirst]
    · simp only [DbOp.exec, hfirst']
    · unfold query
      split
      · trivial
      · exact howns₀
  case h_2 row =>
    -- a save of the node itself; its name is free in both runs
    obtain ⟨ns, hns⟩ := save_of_owns (s.clock + c.elapsed) hrow ho
    obtain ⟨nt, hnt⟩ := save_of_owns (s.clock + c.elapsed) hrow' ho
    have hfree := nodeNameFree_of_owns h.left.names hrow howns₀ ho
    have hfree' := nodeNameFree_of_owns h.right.names hrow' howns₀ ho
    cases hfail : c.fail with
    | true =>
      refine h.db (.error (.failure c.text)) _ ?_ ?_ ⟨trivial, .inr rfl⟩ h
      · simp only [DbOp.exec, statement, hfail, if_true]
      · simp only [DbOp.exec, statement, hfail, if_true]
    | false =>
      refine h.db (.ok ()) _ ?_ ?_ ⟨trivial, .inr rfl⟩ (h.save ho hns hnt)
      · simp [DbOp.exec, statement, hfail, hfree, hns]
      · simp [DbOp.exec, statement, hfail, hfree', hnt]
  case h_3 nodeID since =>
    -- the tasks of the node, which are the same in both runs
    subst ho
    refine h.db (if c.fail then [] else (assigned s.db.task a.id).filter (updatedAfter since)) _
      ?_ ?_ ⟨?_, .inr rfl⟩ h
    · simp only [DbOp.exec, find_assigned]
    · simp only [DbOp.exec, find_assigned, htasks]
    · intro x hx
      split at hx
      · cases hx
      · rw [← h.left.tasks]
        exact List.mem_of_mem_filter hx
  case h_4 id nodeID =>
    -- one of them
    subst ho
    refine h.db (query c ((assigned s.db.task a.id).find? (fun x => x.id == id))) _
      ?_ ?_ ⟨?_, .inr rfl⟩ h
    · simp only [DbOp.exec, first_assigned]
    · simp only [DbOp.exec, first_assigned, htasks]
    · unfold query
      split
      · trivial
      · cases hfind : (assigned s.db.task a.id).find? (fun x => x.id == id) with
        | none => trivial
        | some x =>
          have hmemx := List.mem_of_find?_eq_some hfind
          rw [h.left.tasks] at hmemx
          exact ⟨by simpa using List.find?_some hfind, hmemx⟩
  case h_5 log =>
    -- a log of one of its runs; the keys may differ, and nobody sees them
    cases hfail : c.fail with
    | true =>
      refine h.db (.error (.failure c.text)) _ ?_ ?_ ⟨trivial, .inr rfl⟩ h
      · simp only [DbOp.exec, statement_some, hfail, if_true]
      · simp only [DbOp.exec, statement_some, hfail, if_true]
    | false =>
      refine h.db (.ok (s.db.taskLog.inserted log (s.clock + c.elapsed)))
        (.ok (t.db.taskLog.inserted log (s.clock + c.elapsed))) ?_ ?_ ⟨trivial, .inl trivial⟩
        (h.log ho (s.clock + c.elapsed))
      · simp only [DbOp.exec, statement_some, hfail, Bool.false_eq_true, if_false]
      · simp only [DbOp.exec, statement_some, hfail, Bool.false_eq_true, if_false]
  case h_6 event =>
    -- an event, in the same way
    cases hfail : c.fail with
    | true =>
      refine h.db (.error (.failure c.text)) _ ?_ ?_ ⟨trivial, .inr rfl⟩ h
      · simp only [DbOp.exec, statement_some, hfail, if_true]
      · simp only [DbOp.exec, statement_some, hfail, if_true]
    | false =>
      refine h.db (.ok (s.db.nodeEvent.inserted event (s.clock + c.elapsed)))
        (.ok (t.db.nodeEvent.inserted event (s.clock + c.elapsed))) ?_ ?_ ⟨trivial, .inl trivial⟩
        (h.event ho (s.clock + c.elapsed))
      · simp only [DbOp.exec, statement_some, hfail, Bool.false_eq_true, if_false]
      · simp only [DbOp.exec, statement_some, hfail, Bool.false_eq_true, if_false]
  case h_7 =>
    -- the clocks go on together
    have htick := h.tick c.elapsed
    simp only [exec, h.left.running, h.right.running, Bool.false_eq_true, if_false, WorldOp.exec,
      Option.map_some]
    refine ⟨⟨trivial, .inr ?_⟩, htick⟩
    rw [h.clock]
  case h_8 => exact ho.elim

end Steps

end Writes

/-! ## Sequences of requests -/

/-- Serve requests one after another, the operations of each with the choices listed with it, and
    collect the replies. -/
def serveReplies (ext : Externals) (caller : Caller) :
    List (Request × List Choice) → State → Option (List Reply × State)
  | [], s => some ([], s)
  | x :: rest, s =>
    ((x.1.handle ext caller).runWith (exec ext) x.2 s).bind fun y =>
      (serveReplies ext caller rest y.2).bind fun z => some (y.1 :: z.1, z.2)

section Sequences

variable {ext ext' : Externals} {caller caller' : Caller} {a : Agent}

/-- Of the server an agent request only reads the version, and of the connection nothing. -/
theorem handle_of_agentKey {req : Request} {secretKey : String}
    (hreq : req.agentKey = some secretKey) (hversion : ext'.version = ext.version) :
    req.handle ext' caller' = req.handle ext caller := by
  cases req with
  | agentCheckUpdate secretKey currentVersion =>
    simp only [Request.handle, agentCheckUpdate, hversion]
  | agentHeartbeat _ _ | agentGetTasks _ _ | agentReportTaskResult _ _ | agentReportEvents _ _ => rfl
  | _ => cases hreq

/-- Two servers that the agent cannot tell apart answer it alike and store the same. -/
theorem Alike.serve {script : List (Request × List Choice)} {s₀ t₀ s t : State}
    (h : Alike a s₀ t₀ s t) (hscript : ∀ x ∈ script, x.1.agentKey = some a.key)
    (hversion : ext'.version = ext.version) :
    Together (fun replies replies' => replies = replies' ∧ ∀ reply ∈ replies, ShowsOnly a.tasks reply)
      (Alike a s₀ t₀) (serveReplies ext caller script s) (serveReplies ext' caller' script t) := by
  have hstep : ∀ o c s t, Alike a s₀ t₀ s t → AgentOk a o →
      Together (SameAnswer Dropped (AgentAns a) o) (Alike a s₀ t₀) (exec ext o c s)
        (exec ext' o c t) := fun o c s t hR ho => hR.step ho
  induction script generalizing s t with
  | nil =>
    simp only [serveReplies]
    exact ⟨⟨rfl, by simp⟩, h⟩
  | cons x rest ih =>
    have hkey := hscript x List.mem_cons_self
    have hmeets : (x.1.handle ext caller).Meets (AgentOk a) Dropped (AgentAns a)
        (ShowsOnly a.tasks) := agentRequest_meets hkey caller
    have hhandle : x.1.handle ext' caller' = x.1.handle ext caller :=
      handle_of_agentKey hkey hversion
    have hone := hmeets.lockstep hstep h x.2
    simp only [serveReplies]
    rw [hhandle]
    refine hone.bind fun reply reply' s' t' hreply hR => ?_
    obtain ⟨rfl, hshows⟩ := hreply
    have hrest := ih hR fun y hy => hscript y (List.mem_cons_of_mem _ hy)
    refine hrest.bind fun replies replies' s'' t'' hreplies hR' => ?_
    obtain ⟨rfl, hall⟩ := hreplies
    exact ⟨⟨rfl, List.forall_mem_cons.mpr ⟨hshows, hall⟩⟩, hR'⟩

/-- What the requests with the key of this node know of it. -/
def agentOf (s : State) (row : Node) : Agent :=
  ⟨row.id, row.secretKey, row.name, assigned s.db.task row.id⟩

theorem hosts_agentOf {s t : State} {row : Node} (hrunning : t.os.crashed = false)
    (hkeys : DistinctKeys t.db.node) (hnames : UniqueNames t.db.node)
    (hnode : t.db.node.byId row.id = some row)
    (htasks : assigned t.db.task row.id = assigned s.db.task row.id) : Hosts (agentOf s row) t := by
  obtain ⟨-, -, hlive⟩ := Table.mem_of_byId hnode
  exact ⟨hrunning, hkeys, hnames, ⟨row, hnode, rfl, rfl, rfl, hlive⟩, htasks⟩

/-- **The isolation of the agents.**  Where the live nodes have distinct keys, requests that all
    present the key of one live node write only what belongs to it, and show only tasks assigned to
    it; a server that agrees on this node, its tasks, the clock and the version answers them alike
    and stores the same.  A request with an empty key, or one of no live node, writes nothing and is
    answered with an error. -/
theorem agents_isolated {ext : Externals} {caller : Caller} {script : List (Request × List Choice)}
    {s s' : State} {row : Node} {replies : List Reply} (hrunning : s.os.crashed = false)
    (hkeys : DistinctKeys s.db.node) (hnames : UniqueNames s.db.node)
    (hnode : s.db.node.byId row.id = some row)
    (hscript : ∀ x ∈ script, x.1.agentKey = some row.secretKey)
    (hserved : serveReplies ext caller script s = some (replies, s')) :
    (∃ logs events, Written (agentOf s row) s s' logs events) ∧
    (∀ reply ∈ replies, ShowsOnly (assigned s.db.task row.id) reply) ∧
    (∀ ext' caller' t, ext'.version = ext.version → t.os.crashed = false →
      DistinctKeys t.db.node → UniqueNames t.db.node → t.clock = s.clock →
      t.db.node.byId row.id = some row →
      assigned t.db.task row.id = assigned s.db.task row.id →
      ∃ t', serveReplies ext' caller' script t = some (replies, t') ∧
        WrittenAlike (agentOf s row) s t s' t') ∧
    (∀ ext' caller' (req : Request) secretKey reply t t', req.agentKey = some secretKey →
      (secretKey = "" ∨ ∀ node ∈ t.db.node.rows, live node = true → node.secretKey ≠ secretKey) →
      Prog.Runs (execStep ext' AnyStep) (req.handle ext' caller') t reply t' →
      (∃ code message, reply = .response (error code message)) ∧
        ∃ now, t' = { t with clock := now }) := by
  have hleft := hosts_agentOf (s := s) hrunning hkeys hnames hnode rfl
  -- a second server, after requests have been served by both
  have htogether : ∀ (ext' : Externals) (caller' : Caller) (t : State), ext'.version = ext.version →
      Hosts (agentOf s row) t → t.clock = s.clock → t.db.node.byId row.id = some row →
      (∀ reply ∈ replies, ShowsOnly (assigned s.db.task row.id) reply) ∧
        ∃ t', serveReplies ext' caller' script t = some (replies, t') ∧
          WrittenAlike (agentOf s row) s t s' t' := by
    intro ext' caller' t hversion hright hclock hnode'
    have halike : Alike (agentOf s row) s t s t :=
      ⟨hleft, hright, hclock.symm, hnode.trans hnode'.symm,
        [], [], [], [], .refl _ s, .refl _ t, rfl, rfl⟩
    have hserve : Together _ (Alike (agentOf s row) s t) (serveReplies ext caller script s)
        (serveReplies ext' caller' script t) := halike.serve hscript hversion
    rw [hserved] at hserve
    obtain ⟨replies', t', ht', ⟨rfl, hshows⟩, hwritten⟩ := hserve.of_some
    exact ⟨hshows, t', ht', hwritten.written⟩
  obtain ⟨hshows, t', -, hwritten⟩ := htogether ext caller s rfl hleft rfl hnode
  refine ⟨?_, hshows, ?_, ?_⟩
  · obtain ⟨logs, events, -, -, hs, -⟩ := hwritten.rows
    exact ⟨logs, events, hs⟩
  · intro ext' caller' t hversion hrunning' hkeys' hnames' hclock hnode' htasks
    exact (htogether ext' caller' t hversion
      (hosts_agentOf hrunning' hkeys' hnames' hnode' htasks) hclock hnode').2
  · intro ext' caller' req secretKey reply t t' hreq hnone hrun
    exact hrun.post (refused_of_agentNode caller' hreq (agentNode_eq_none.mpr hnone))

/-- A database with an edge node and one task of it. -/
def edgeDatabase : Database :=
  { emptyDatabase with
    node := Table.empty.create { toStamps := Base.zero, name := "edge", secretKey := "k" } 0
    task := Table.empty.create { oneTask with nodeID := 1 } 0 }

/-- The node, as it is stored. -/
def edgeRow : Node := { toStamps := ⟨1, 0, 0, none⟩, name := "edge", secretKey := "k" }

/-- A second node with this key, and a task of it, besides. -/
def twoNodeDatabase (secretKey : String) : Database :=
  { edgeDatabase with
    node := edgeDatabase.node.create { toStamps := Base.zero, name := "depot", secretKey } 0
    task := edgeDatabase.task.create { oneTask with toStamps := Base.zero, nodeID := 2 } 0 }

theorem twoNodeDatabase_unique (secretKey : String) (hne : secretKey ≠ "k") :
    DistinctKeys (twoNodeDatabase secretKey).node ∧ UniqueNames (twoNodeDatabase secretKey).node := by
  have hrows : ∀ row ∈ (twoNodeDatabase secretKey).node.rows, row = edgeRow ∨
      row = { toStamps := ⟨2, 0, 0, none⟩, name := "depot", secretKey } := by
    intro row hrow
    rcases List.mem_cons.mp hrow with rfl | hrow
    · exact .inl rfl
    · exact .inr (List.mem_singleton.mp hrow)
  constructor
  · intro row hrow row' hrow' _ _ hsame
    rcases hrows row hrow with rfl | rfl <;> rcases hrows row' hrow' with rfl | rfl
    · rfl
    · exact absurd hsame.symm hne
    · exact absurd hsame hne
    · rfl
  · intro row hrow row' hrow' hsame
    rcases hrows row hrow with rfl | rfl <;> rcases hrows row' hrow' with rfl | rfl
    · rfl
    · exact absurd hsame (show "edge" ≠ "depot" by decide)
    · exact absurd hsame (show "depot" ≠ "edge" by decide)
    · rfl

/-- The agent of the first node fetches its task and reports a result, on two servers whose second
    nodes have different keys. -/
theorem agents_isolated_twoNodes : ∃ replies s' t',
    serveReplies plainExternals ⟨0, ""⟩
      [(.agentGetTasks "k" none, [{}, {}]),
        (.agentReportTaskResult "k" (.ok { taskID := 1 }), [{}, {}, {}, {}])]
      (State.boot (twoNodeDatabase "m") 0) = some (replies, s') ∧
    (∃ logs events, Written (agentOf (State.boot (twoNodeDatabase "m") 0) edgeRow)
      (State.boot (twoNodeDatabase "m") 0) s' logs events) ∧
    (∀ reply ∈ replies, ShowsOnly [{ oneTask with nodeID := 1 }] reply) ∧
    serveReplies plainExternals ⟨0, ""⟩
      [(.agentGetTasks "k" none, [{}, {}]),
        (.agentReportTaskResult "k" (.ok { taskID := 1 }), [{}, {}, {}, {}])]
      (State.boot (twoNodeDatabase "z") 0) = some (replies, t') ∧
    WrittenAlike (agentOf (State.boot (twoNodeDatabase "m") 0) edgeRow)
      (State.boot (twoNodeDatabase "m") 0) (State.boot (twoNodeDatabase "z") 0) s' t' := by
  obtain ⟨hkeys, hnames⟩ := twoNodeDatabase_unique "m" (by decide)
  obtain ⟨hkeys', hnames'⟩ := twoNodeDatabase_unique "z" (by decide)
  have hserved : ∃ replies s', serveReplies plainExternals ⟨0, ""⟩
      [(.agentGetTasks "k" none, [{}, {}]),
        (.agentReportTaskResult "k" (.ok { taskID := 1 }), [{}, {}, {}, {}])]
      (State.boot (twoNodeDatabase "m") 0) = some (replies, s') := ⟨_, _, rfl⟩
  obtain ⟨replies, s', hserved⟩ := hserved
  have hnode : (State.boot (twoNodeDatabase "m") 0).db.node.byId edgeRow.id = some edgeRow := rfl
  obtain ⟨hwritten, hshows, hunseen, -⟩ :=
    agents_isolated rfl hkeys hnames hnode (by simp [Request.agentKey, edgeRow]) hserved
  obtain ⟨t', hserved', halike⟩ := hunseen plainExternals ⟨0, ""⟩
    (State.boot (twoNodeDatabase "z") 0) rfl rfl hkeys' hnames' rfl rfl rfl
  exact ⟨replies, s', t', hserved, hwritten, hshows, hserved', halike⟩

end Sequences

end Gonitor.Requests
