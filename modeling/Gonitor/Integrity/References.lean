import Gonitor.Integrity.Dependencies
import Gonitor.Requests.NodeGuard
import Gonitor.Requests.Tables
import Gonitor.Server.Bootstrap

/-!
# References of the Tasks

A task refers to a node and to the task it depends on.  The validation looks for the dependency,
`DeleteNode` for tasks of the node; nobody looks for the node of a task that is stored, nor for the
tasks that depend on one that is deleted.

## Main Results

- `references_intact`: the references hold in every run in which no step does what is not looked
  for.
- `unknown_node_stored`: `AddTask` stores a task of a node that does not exist.
-/

namespace Gonitor.Integrity

open Gonitor.Model Gonitor.Server Gonitor.Controller Gonitor.Requests AtomicProgram SoftDelete

/-! ## Intact references -/

/-- No node, or one that is there. -/
def NodeThere (nodes : Table Node) (nodeID : Int) : Prop :=
  nodeID = 0 ∨ ∃ node, nodes.byId nodeID = some node

/-- No dependency, or another task that is there. -/
def DependencyThere (tasks : Table Task) (taskId dependencyID : Int) : Prop :=
  dependencyID = 0 ∨ dependencyID ≠ taskId ∧ ∃ dependency, tasks.byId dependencyID = some dependency

/-- The references of every live task hold. -/
structure Referential (tasks : Table Task) (nodes : Table Node) : Prop where
  node : ∀ i row, tasks.byId i = some row → NodeThere nodes row.nodeID
  dependency : ∀ i row, tasks.byId i = some row → DependencyThere tasks i row.dependsOnTaskID

/-- The step breaks no reference: a row stored names no node that is missing, no live task depends
    on a row deleted, and where the count of a node's tasks fails there are none. -/
def IntactStep (s : State) (o : Op) (c : Choice) : Prop :=
  match o with
  | .db (.createTask row) => c.fail = false → NodeThere s.db.node row.nodeID
  | .db (.saveTask row) => c.fail = false → NodeThere s.db.node row.nodeID
  | .db (.deleteTask id) =>
    c.fail = false → ∀ i row, s.db.task.byId i = some row → row.dependsOnTaskID ≠ id
  | .db (.countNodeTasks id) =>
    c.fail = true → ∀ i row, s.db.task.byId i = some row → row.nodeID ≠ id
  | _ => True

/-! ## Changes of the tasks -/

section Tasks

variable {ext : Externals} {nodes : Table Node} {tasks tasks' : Table Task}

/-- A dependency stays where the tasks that are there stay. -/
theorem DependencyThere.mono {i j : Int} (h : DependencyThere tasks i j)
    (hstay : ∀ d, tasks.byId j = some d → ∃ d', tasks'.byId j = some d') :
    DependencyThere tasks' i j := by
  rcases h with hzero | ⟨hne, d, hd⟩
  · exact .inl hzero
  · exact .inr ⟨hne, hstay d hd⟩

/-- What the validation has accepted is there. -/
theorem Accepted.dependencyThere {taskID i : Int} {payload : TaskMutationPayload}
    (h : Accepted ext tasks taskID payload) (hne : payload.dependsOnTaskID > 0 →
      payload.dependsOnTaskID ≠ i) : DependencyThere tasks i payload.dependsOnTaskID := by
  obtain ⟨-, -, -, -, -, -, -, hnonneg⟩ := payloadFieldError_eq_none.mp h.fields
  rcases Int.lt_or_eq_of_le hnonneg with hpos | hzero
  · exact .inr ⟨hne hpos, (h.dependency hpos).2⟩
  · exact .inl hzero.symm

theorem Referential.create (h : Referential tasks nodes) {payload : TaskMutationPayload}
    {now : Time} (haccepted : Accepted ext tasks 0 payload)
    (hnode : NodeThere nodes payload.nodeID) :
    Referential (tasks.create (payload.apply { toStamps := Base.zero }).withDefaults now)
      nodes := by
  have hstay : ∀ j d, tasks.byId j = some d →
      ∃ d', (tasks.create (payload.apply { toStamps := Base.zero }).withDefaults now).byId j =
        some d' := by
    intro j d hd
    rw [Table.byId_create]
    split
    · exact ⟨_, rfl⟩
    · exact ⟨d, hd⟩
  constructor
  · intro i row hrow
    rw [Table.byId_create] at hrow
    split at hrow
    · cases hrow
      exact hnode
    · exact h.node i row hrow
  · intro i row hrow
    rw [Table.byId_create] at hrow
    split at hrow
    · -- the new task
      rename_i hi
      cases hrow
      have hthere : DependencyThere tasks i payload.dependsOnTaskID := by
        apply haccepted.dependencyThere
        intro _ heq
        -- the dependency has a key handed out before
        have hlt := haccepted.below
        omega
      exact hthere.mono (hstay _)
    · exact (h.dependency i row hrow).mono (hstay _)

theorem Referential.save (h : Referential tasks nodes) {row row' : Task} {now : Time}
    (hfound : tasks.byId row.id = some row) (hrewritten : Rewritten ext tasks row row')
    (hnode : NodeThere nodes row'.nodeID) (hsave : tasks.save row' now = some tasks') :
    Referential tasks' nodes := by
  obtain ⟨hmem, -, hlive⟩ := Table.mem_of_byId hfound
  have hlive' : live row' = true := hrewritten.live_eq.trans hlive
  have hid : rowId row' = row.id := by cases hrewritten <;> rfl
  have hstay : ∀ j d, tasks.byId j = some d → ∃ d', tasks'.byId j = some d' := by
    intro j d hd
    rw [Table.byId_save hsave hlive']
    split
    · exact ⟨_, rfl⟩
    · exact ⟨d, hd⟩
  -- an edit checks the dependency, a switch keeps it, an import has looked it up
  have hdependency : DependencyThere tasks row.id row'.dependsOnTaskID := by
    cases hrewritten with
    | edited haccepted =>
      apply haccepted.dependencyThere
      intro hpos heq
      exact (haccepted.dependency hpos).1 ⟨tasks.ids_pos row hmem, heq⟩
    | switched isDisable => exact h.dependency row.id row hfound
    | linked hthere hne => exact .inr ⟨hne, _, hthere⟩
  constructor
  · intro i x hx
    rw [Table.byId_save hsave hlive'] at hx
    split at hx
    · cases hx
      exact hnode
    · exact h.node i x hx
  · intro i x hx
    rw [Table.byId_save hsave hlive', hid] at hx
    split at hx
    · rename_i hi
      cases hx
      exact hi ▸ hdependency.mono (hstay _)
    · exact (h.dependency i x hx).mono (hstay _)

theorem Referential.delete (h : Referential tasks nodes) {id : Int} {now : Time}
    (hfree : ∀ i row, tasks.byId i = some row → row.dependsOnTaskID ≠ id) :
    Referential (tasks.delete id now) nodes := by
  have hold : ∀ i row, (tasks.delete id now).byId i = some row → tasks.byId i = some row := by
    intro i row hrow
    rw [Table.byId_delete] at hrow
    split at hrow
    · cases hrow
    · exact hrow
  constructor
  · exact fun i row hrow => h.node i row (hold i row hrow)
  · intro i row hrow
    apply (h.dependency i row (hold i row hrow)).mono
    intro d hd
    rw [Table.byId_delete, if_neg (hfree i row (hold i row hrow))]
    exact ⟨d, hd⟩

/-- One change of the tasks that breaks no reference. -/
theorem Referential.change (h : Referential tasks nodes)
    (hchange : TaskChange ext IntactStep nodes tasks tasks') : Referential tasks' nodes := by
  cases hchange with
  | @created payload now haccepted hperforms =>
    obtain ⟨s, rfl, -, c, hintact, hok⟩ := hperforms
    exact h.create haccepted (hintact hok)
  | saved hfound hrewritten hperforms hsave =>
    obtain ⟨s, rfl, -, c, hintact, hok⟩ := hperforms
    exact h.save hfound hrewritten (hintact hok) hsave
  | deleted hperforms =>
    obtain ⟨s, -, rfl, c, hintact, hok⟩ := hperforms
    exact h.delete (hintact hok)

end Tasks

/-! ## Changes of the nodes -/

section Nodes

variable {ext : Externals} {K : State → Op → Choice → Prop} {α : Type}

/-- The live nodes stay. -/
def NodesStay (nodes nodes' : Table Node) : Prop :=
  ∀ i node, nodes.byId i = some node → ∃ node', nodes'.byId i = some node'

theorem Referential.nodesStay {tasks : Table Task} {nodes nodes' : Table Node}
    (h : Referential tasks nodes) (hstay : NodesStay nodes nodes') : Referential tasks nodes' := by
  constructor
  · intro i row hrow
    rcases h.node i row hrow with hzero | ⟨node, hnode⟩
    · exact .inl hzero
    · exact .inr (hstay _ node hnode)
  · exact h.dependency

/-- A node that no live task names can be deleted. -/
theorem Referential.deleteNode {tasks : Table Task} {nodes : Table Node} {id : Int} {now : Time}
    (h : Referential tasks nodes) (hfree : ∀ i row, tasks.byId i = some row → row.nodeID ≠ id) :
    Referential tasks (nodes.delete id now) := by
  constructor
  · intro i row hrow
    rcases h.node i row hrow with hzero | ⟨node, hnode⟩
    · exact .inl hzero
    · refine .inr ⟨node, ?_⟩
      rw [Table.byId_delete, if_neg (hfree i row hrow)]
      exact hnode
  · exact h.dependency

/-- Where the count of its tasks is zero, no live task names the node; this is so also where the
    count has failed, in a step that breaks no reference. -/
theorem nodeID_ne_of_count {s s' : State} {c : Choice} {nodeId : Int} {taskCount : Nat}
    (h : exec ext (.db (.countNodeTasks nodeId)) c s = some (taskCount, s'))
    (hintact : IntactStep s (.db (.countNodeTasks nodeId)) c) (hzero : ¬ taskCount > 0) :
    ∀ i row, s.db.task.byId i = some row → row.nodeID ≠ nodeId := by
  obtain ⟨-, hcount, -⟩ := exec_db h
  cases hfail : c.fail with
  | true => exact hintact hfail
  | false =>
    intro i row hrow heq
    obtain ⟨hmem, -, hlive⟩ := Table.mem_of_byId hrow
    have hlisted : row ∈ s.db.task.find fun t => t.nodeID == nodeId := by
      apply List.mem_filter.mpr
      simp [hmem, hlive, heq]
    have hpos := List.length_pos_of_mem hlisted
    simp only [DbOp.exec, hfail, Bool.false_eq_true, if_false] at hcount
    exact hzero (hcount ▸ hpos)

/-- Rows that are live where they stand for the node `n`. -/
def LiveRow (n : Int) (row : Node) : Prop := row.id = n → live row = true

theorem liveRow_guard (n : Int) : NodeGuard (LiveRow n) fun _ => True := by
  constructor
  · intro row row' hstamps _ _ hrow hid
    have hlive := hrow (by rw [← hid, hstamps])
    rw [← hlive]
    exact congrArg (fun st : Stamps Time => st.deletedAt.isNone) hstamps
  · intro row key _ _ hrow
    exact hrow

/-- One operation keeps a node that is there, if it is not deleted. -/
theorem node_stays {n : Int} (o : Op) (s : State) (r : o.Res) (s' : State)
    (hn : ∃ node, s.db.node.byId n = some node)
    (ho : NodeOk (LiveRow n) (fun _ => True) (fun _ => False) o) (h : execStep ext K o s r s') :
    NodeAns (LiveRow n) (fun _ => True) o r ∧ ∃ node, s'.db.node.byId n = some node := by
  obtain ⟨c, -, hexec⟩ := h
  constructor
  · refine nodeAns_of_exec ?_ (fun _ _ => trivial) hexec
    exact fun i node hnode _ => (Table.mem_of_byId hnode).2.2
  · have hstep := nodeStep_of_exec hexec
    generalize s'.db.node = nodes' at hstep ⊢
    cases hstep with
    | same => exact hn
    | created hok =>
      rw [Table.byId_create]
      split
      · exact ⟨_, rfl⟩
      · exact hn
    | @saved row now _ hok hsave =>
      obtain ⟨node, hnode⟩ := hn
      by_cases hid : n = rowId row
      · rw [Table.byId_save hsave (ho hid.symm), if_pos hid]
        exact ⟨_, rfl⟩
      · refine ⟨node, ?_⟩
        rw [Table.byId_eq_some, Table.row?_save hsave, if_neg hid]
        exact Table.byId_eq_some.mp hnode
    | deleted hok => exact ho.elim

/-- A program that deletes no node and saves live rows keeps all nodes. -/
theorem nodesStay_of_assured {p : Program α}
    (hp : ∀ n, p.Assured (NodeOk (LiveRow n) (fun _ => True) fun _ => False)
      (NodeAns (LiveRow n) fun _ => True)) {s s' : State} {r : α}
    (hrun : Prog.Runs (execStep ext K) p s r s') : NodesStay s.db.node s'.db.node := by
  intro n node hnode
  exact (hp n).runs (I := fun s => ∃ node, s.db.node.byId n = some node)
    (fun o s r s' hs ho h => node_stays o s r s' hs ho h) ⟨node, hnode⟩ hrun

end Nodes

/-! ## In every run -/

section Runs

variable {ext : Externals}

/-- A node that `DeleteNode` removes had no tasks. -/
theorem deleteNode_references (caller : Caller) (nodeId : Int) {s : State}
    (h : Referential s.view.tasks s.view.nodes) :
    Ensures ext IntactStep (Controller.deleteNode caller nodeId) (fun _ s' =>
      Referential s'.view.tasks s'.view.nodes) s := by
  have hsame : ∀ {s₁ s₂ : State}, s₂.view = s₁.view →
      Referential s₁.view.tasks s₁.view.nodes → Referential s₂.view.tasks s₂.view.nodes := by
    intro s₁ s₂ heq h
    rwa [heq]
  refine Ensures.op fun c r s₁ _ h₁ => ?_
  have hview₁ := view_of_keepsView (show (Op.db (.findNode .nodeRequest nodeId)).KeepsView
    from trivial) h₁
  have href₁ := hsame hview₁ h
  cases r with
  | error err => exact Ensures.pure href₁
  | ok nodeModel =>
    have hid : nodeModel.id = nodeId := (Table.mem_of_byId (byId_of_findNode h₁)).2.1
    show Ensures ext IntactStep (if nodeModel.isMaster = true then _ else _) _ s₁
    split
    · -- the master is not deleted
      exact Ensures.pure href₁
    · refine Ensures.op fun c taskCount s₂ hintact h₂ => ?_
      have hview₂ := view_of_keepsView (show (Op.db (.countNodeTasks nodeId)).KeepsView
        from trivial) h₂
      have href₂ := hsame hview₂ href₁
      show Ensures ext IntactStep (if taskCount > 0 then _ else _) _ s₂
      split
      · -- nor is a node with tasks
        exact Ensures.pure href₂
      · rename_i hzero
        -- the count is zero, so no live task names the node
        have hnone : ∀ i row, s₂.view.tasks.byId i = some row → row.nodeID ≠ nodeId := by
          rw [hview₂]
          exact nodeID_ne_of_count h₂ hintact hzero
        refine Ensures.op fun c r s₃ _ h₃ => ?_
        have href₃ : Referential s₃.view.tasks s₃.view.nodes := by
          have htasks : s₃.db.task = s₂.db.task :=
            tasks_of_exec (show KeepsTasks (.db (.deleteNode nodeModel.id)) from trivial) h₃
          have hstep := nodeStep_of_exec h₃
          show Referential s₃.db.task s₃.db.node
          rw [htasks]
          generalize s₃.db.node = nodes' at hstep ⊢
          cases hstep with
          | same => exact href₂
          | deleted hok =>
            apply href₂.deleteNode
            rw [hid]
            exact hnone
        cases r with
        | error err => exact Ensures.pure href₃
        | ok _ =>
          have hplain : (logNodeOperation caller nodeModel "DeleteNode" >>= fun _ =>
              pure (Reply.response (success "delete success" (.node nodeModel)))).Uses Plain :=
            (addOperationLog_uses _ _ _ _).bind fun _ => trivial
          exact (Ensures.of_plain hplain s₃).mono fun _ s₄ h₄ => hsame h₄ href₃

/-- A node request that deletes no node. -/
theorem nodeRequest_stays {req : Request} {caller : Caller} {s s' : State} {reply : Reply}
    (hreq : req.isNodeRequest = true) (hother : ∀ nodeId, req ≠ .deleteNode nodeId)
    (hrun : Prog.Runs (execStep ext IntactStep) (req.handle ext caller) s reply s') :
    NodesStay s.db.node s'.db.node := by
  apply nodesStay_of_assured (p := req.handle ext caller) _ hrun
  intro n
  cases req with
  | addNode body => exact addNode_assured (liveRow_guard n).duty caller body
  | editNode nodeId body => exact editNode_assured (liveRow_guard n).duty caller nodeId body
  | deleteNode nodeId => exact absurd rfl (hother nodeId)
  | regenerateNodeKey nodeId => exact regenerateNodeKey_assured (liveRow_guard n).duty nodeId
  | deployNode body => exact deployNode_assured (liveRow_guard n).duty caller body
  | deployNewNode body => exact deployNewNode_assured (liveRow_guard n).duty caller body
  | _ => cases hreq

/-- Every task or node request keeps the references. -/
theorem request_references {req : Request} (hreq : TaskOrNodeRequest req) (caller : Caller)
    {s : State} (h : Referential s.view.tasks s.view.nodes) :
    Ensures ext IntactStep (req.handle ext caller) (fun _ s' =>
      Referential s'.view.tasks s'.view.nodes) s := by
  rcases hreq with htask | hnode
  · refine (taskRequest_changes htask caller s).mono ?_
    rintro _ s' ⟨hnodes, hchanges⟩
    rw [hnodes]
    apply hchanges.invariant (P := fun tasks => Referential tasks s.view.nodes) _ h
    exact fun tasks tasks' htasks hchange => htasks.change hchange
  · by_cases hdelete : ∃ nodeId, req = .deleteNode nodeId
    · obtain ⟨nodeId, rfl⟩ := hdelete
      exact deleteNode_references caller nodeId h
    · have hother : ∀ nodeId, req ≠ .deleteNode nodeId :=
        fun nodeId heq => hdelete ⟨nodeId, heq⟩
      have htasks : Ensures ext IntactStep (req.handle ext caller)
          (fun _ s' => s'.view.tasks = s.view.tasks) s :=
        nodeWork_tasks (nodeRequest_uses hnode caller) s
      apply Ensures.of_runs
      intro reply s' hrun
      rw [hrun.post htasks]
      exact h.nodesStay (nodeRequest_stays hnode hother hrun)

/-- What `initDb` leaves of an empty database. -/
def Bootstrapped (ext : Externals) (db : Database) : Prop :=
  ∃ now s, Prog.Runs (execStep ext AnyStep) initDb (State.boot emptyDatabase now) () s ∧ s.db = db

theorem initDb_uses : initDb.Uses KeepsTasks := by
  have hmaster : initMaster.Uses KeepsTasks := by
    refine Prog.Uses.call_bind trivial fun r => ?_
    cases r with
    | ok node => trivial
    | error err =>
      cases err with
      | failure text => trivial
      | recordNotFound => exact Prog.Uses.call_bind trivial fun _ => trivial
  have hadmin : initAdmin.Uses KeepsTasks := by
    refine Prog.Uses.call_bind trivial fun r => ?_
    cases r with
    | ok user => trivial
    | error err =>
      cases err with
      | failure text => trivial
      | recordNotFound =>
        refine Prog.Uses.call_bind trivial fun r => ?_
        cases r with
        | error err => trivial
        | ok hashedPassword => exact Prog.Uses.call_bind trivial fun _ => trivial
  exact hmaster.bind fun _ => hadmin

/-- The bootstrapped database has no tasks. -/
theorem noTasks_of_bootstrapped {db : Database} (h : Bootstrapped ext db) : NoTasks db := by
  obtain ⟨now, s, hrun, rfl⟩ := h
  have htasks : Ensures ext AnyStep initDb (fun _ s' => s'.db.task.rows = [])
      (State.boot emptyDatabase now) := by
    apply initDb_uses.wp (I := fun s' : State => s'.db.task.rows = []) _ rfl
    intro o s₁ ho hs
    refine ⟨trivial, ?_⟩
    rintro r s₂ ⟨c, -, hexec⟩
    rw [tasks_of_exec ho hexec]
    exact hs
  exact hrun.post htasks

/-- **References stay intact** in every run of task and node requests from the bootstrapped
    database whose steps break none: no task is stored with a node that is missing, none is deleted
    that another depends on, and the count of a node's tasks does not fail where there are some. -/
theorem references_intact {s : State}
    (h : ReachableFrom (Bootstrapped ext) ext IntactStep TaskOrNodeRequest s) :
    Referential s.db.task s.db.node := by
  apply h.tables_invariant (I := Referential)
  · intro db hdb
    have hnone := byId_of_noTasks (noTasks_of_bootstrapped hdb)
    constructor
    · intro i row hrow
      rw [hnone] at hrow
      cases hrow
    · intro i row hrow
      rw [hnone] at hrow
      cases hrow
  · exact fun req caller s hreq hs => request_references hreq caller hs

end Runs

/-- On the bootstrapped database a task is added for the node 7, which was never created. -/
theorem unknown_node_stored : ¬ ∀ s, ReachableFrom (Bootstrapped plainExternals) plainExternals
    AnyStep TaskOrNodeRequest s → Referential s.db.task s.db.node := by
  intro hintact
  have hserved : ∃ db s s', Bootstrapped plainExternals db ∧
      Prog.Runs (execStep plainExternals AnyStep) Gonitor.Task.start (State.boot db 0) () s ∧
      serveWith plainExternals ⟨0, ""⟩
        [(.addTask (.ok { somePayload with nodeID := 7 }), [{}, { fail := true }])] s = some s' ∧
      (∃ row, s'.db.task.byId 1 = some row ∧ row.nodeID = 7) ∧ s'.db.node.byId 7 = none :=
    ⟨_, _, _, ⟨0, _, .op ⟨{}, trivial, rfl⟩ (.op ⟨{}, trivial, rfl⟩ (.op ⟨{}, trivial, rfl⟩
      (.op ⟨{}, trivial, rfl⟩ (.op ⟨{}, trivial, rfl⟩ (.pure _ _))))), rfl⟩,
      .op ⟨{}, trivial, rfl⟩ (.pure _ _), rfl, ⟨_, rfl, rfl⟩, rfl⟩
  obtain ⟨db, s, s', hboot, hstart, hserve, ⟨row, hrow, hnode⟩, hnone⟩ := hserved
  have hmany : ServesMany plainExternals AnyStep TaskOrNodeRequest s s' := by
    refine servesMany_of_serveWith ?_ ?_ hserve
    · simp [TaskOrNodeRequest, Request.isTaskRequest]
    · exact fun _ _ _ _ _ _ => trivial
  have hreferential := hintact s' ⟨db, 0, s, hboot, hstart, hmany⟩
  rcases hreferential.node 1 row hrow with hzero | ⟨node, hthere⟩
  · rw [hnode] at hzero
    cases hzero
  · rw [hnode, hnone] at hthere
    cases hthere

/-- A task is added for the node 1, the master. -/
theorem references_intact_oneTask : ∃ (s : State) (row : Task),
    s.db.task.byId 1 = some row ∧ row.nodeID = 1 ∧ Referential s.db.task s.db.node := by
  have hserved : ∃ db s reply s', Bootstrapped plainExternals db ∧
      Prog.Runs (execStep plainExternals IntactStep) Gonitor.Task.start (State.boot db 0) () s ∧
      Prog.Runs (execStep plainExternals IntactStep)
        (Request.handle plainExternals ⟨0, ""⟩ (.addTask (.ok { somePayload with nodeID := 1 })))
        s reply s' ∧
      ∃ row, s'.db.task.byId 1 = some row ∧ row.nodeID = 1 :=
    ⟨_, _, _, _, ⟨0, _, .op ⟨{}, trivial, rfl⟩ (.op ⟨{}, trivial, rfl⟩ (.op ⟨{}, trivial, rfl⟩
      (.op ⟨{}, trivial, rfl⟩ (.op ⟨{}, trivial, rfl⟩ (.pure _ _))))), rfl⟩,
      .op ⟨{}, trivial, rfl⟩ (.pure _ _),
      .op ⟨{}, fun _ => .inr ⟨_, rfl⟩, rfl⟩ (.op ⟨{ fail := true }, trivial, rfl⟩ (.pure _ _)),
      _, rfl, rfl⟩
  obtain ⟨db, s, reply, s', hboot, hstart, hadd, row, hrow, hnode⟩ := hserved
  refine ⟨s', row, hrow, hnode, ?_⟩
  have hreach : ReachableFrom (Bootstrapped plainExternals) plainExternals IntactStep
      TaskOrNodeRequest s' :=
    ⟨db, 0, s, hboot, hstart, .single ⟨_, reply, .inl rfl, ⟨0, ""⟩, hadd⟩⟩
  exact references_intact hreach

end Gonitor.Integrity
