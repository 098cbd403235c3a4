import Gonitor.Integrity.Writers
import Gonitor.Integrity.Scheduling
import Gonitor.Requests.Tables

/-!
# The Audit Trail

Most handlers that change a task, a node or a user write an entry into the operation log before
they answer: who did it, and the id of the row.  They do so by hand, at their end.

- `Audited`: whatever row a request has changed, there is an entry of it.
- `Writes`: the request gets as far as its write, and `Logs`: from there to its entry.

## Main Results

- `request_audited`: a request that writes is audited if its user is there and it gets to its entry.
- `audit_complete`: sequences of requests.
- `regenerated_key_unaudited`: an administrator replaces the key of a node without a trace.
-/

namespace Gonitor.Integrity

open Gonitor.Model Gonitor.Server Gonitor.Controller Gonitor.Requests Gonitor.Deploy AtomicProgram
  SoftDelete

/-! ## Changes and entries -/

/-- The row of the key `i` of the task, the node or the user table is not what it was. -/
def Changed (d d' : Database) (i : Int) : Prop :=
  d'.task.row? i ≠ d.task.row? i ∨ d'.node.row? i ≠ d.node.row? i ∨ d'.user.row? i ≠ d.user.row? i

/-- Each row that has been changed has a new entry of the caller in the operation log. -/
def Audited (caller : Caller) (d d' : Database) : Prop :=
  ∀ i, Changed d d' i → ∃ row ∈ d'.operationLog.rows, d.operationLog.nextId ≤ row.id ∧
    row.userId = caller.userId ∧ row.targetId = i

/-- The authenticated user is there. -/
def UserThere (d : Database) (caller : Caller) : Prop := ∃ u, d.user.byId caller.userId = some u

/-! ## When a request writes -/

/-- The name is not that of a node with another id, live or deleted. -/
def NameFree (nodes : Table Node) (name : String) (id : Int) : Prop :=
  ∀ n ∈ nodes.rows, n.name = name → n.id = id

/-- The node is there, and is not the master. -/
def EdgeThere (nodes : Table Node) (id : Int) : Prop :=
  ∃ node, nodes.byId id = some node ∧ node.isMaster = false ∧ NameFree nodes node.name node.id

/-- The checks of a deployment's form. -/
structure Deployable (ext : Externals) (form : SSHForm) : Prop where
  host : validateSSHHost ext form.sshHost = .ok ()
  user : form.sshUser ≠ ""
  password : form.sshPass ≠ ""
  path : validateInstallPath (deployPath form.installPath) = none

/-- The checks of a user's form. -/
def UserFormOk (form : UserForm) : Prop :=
  form.password = form.confirmPassword ∧ ¬ form.password.utf8ByteSize < 6

/-- The items are imported: each is importable, and has no dependency that the second loop would
    refuse, under the keys that the new rows get. -/
structure Importing (ext : Externals) (tasks : Table Task) (items : List TaskTransferItem) :
    Prop where
  importable : ∀ item ∈ items, Importable ext item
  linkable : ∃ rows tasks', Table.rows tasks' = tasks.rows ++ rows ∧
    (∀ row ∈ rows, live row = true) ∧ rows.map rowId = tasks.nextKeys items.length ∧
      ∀ p ∈ items.zip rows, Linkable (recordIds ∅ (items.zip rows)) tasks' p

/-- The request gets as far as its write, if the remote system can be reached. -/
def Writes (ext : Externals) (d : Database) : Request → Prop
  | .addTask (.ok addInfo) => Accepted ext d.task 0 addInfo
  | .editTask taskId (.ok editInfo) =>
    (∃ row, d.task.byId taskId = some row) ∧ Accepted ext d.task taskId editInfo
  | .deleteTask taskId | .startTask taskId | .stopTask taskId =>
    ∃ row, d.task.byId taskId = some row
  | .importTasks (.ok tasks) => tasks ≠ [] ∧ Importing ext d.task tasks
  | .addNode (.ok addInfo) => nodeFormError addInfo = none ∧ NameFree d.node addInfo.name 0
  | .editNode nodeId (.ok editInfo) =>
    (∃ node, d.node.byId nodeId = some node ∧ node.isMaster = false) ∧
      nodeFormError editInfo = none ∧ NameFree d.node editInfo.name nodeId
  | .deleteNode nodeId =>
    (∃ node, d.node.byId nodeId = some node ∧ node.isMaster = false) ∧
      d.task.find (fun t => t.nodeID == nodeId) = []
  | .regenerateNodeKey nodeId => EdgeThere d.node nodeId
  | .deployNode (.ok form) => Deployable ext form.toSSHForm ∧ EdgeThere d.node form.nodeID
  | .deployNewNode (.ok form) => Deployable ext form.toSSHForm ∧ NameFree d.node form.name 0
  | .addUser (.ok form) => UserFormOk form.toUserForm ∧ d.user.Free User.loginAccount form.loginAccount
  | .editUser userId (.ok form) => (∃ u, d.user.byId userId = some u) ∧ UserFormOk form
  | .deleteUser userId => ∃ u, d.user.byId userId = some u
  | _ => False

/-- `Manager.AddTask` does not fail for an enabled or disabled task that is not listed: it has
    nothing to do, or cron parses the schedule. -/
def Startable (ext : Externals) (v : View) (row : Task) : Prop :=
  row.isDisable = true ∨ ¬ v.IsLocal row.nodeID ∨ ext.cronParse row.schedule = true

/-- From its write on the request gets to its entry, and the entry names the row. -/
def Logs (ext : Externals) (v : View) : Request → Prop
  | .addTask (.ok addInfo) =>
    (addInfo.nodeID ≠ 0 → ∃ node, v.nodes.byId addInfo.nodeID = some node) ∧
      Startable ext v (addInfo.apply { toStamps := Base.zero })
  | .editTask _ (.ok editInfo) => Startable ext v (editInfo.apply { toStamps := Base.zero })
  | .startTask taskId => v.taskList.lookup taskId = none ∧
    ∀ row, v.tasks.byId taskId = some row → Startable ext v { row with isDisable := false }
  | .importTasks _ | .regenerateNodeKey _ | .deleteUser _ => False
  | _ => True

/-- If the request writes, its user is there, and it gets to its entry. -/
def Auditable (ext : Externals) (s : State) (caller : Caller) (req : Request) : Prop :=
  Writes ext s.db req → UserThere s.db caller ∧ Logs ext s.view req

/-! ## One row -/

/-- The tables hold the same rows. -/
def SameRows (d d' : Database) : Prop :=
  ∀ j, d'.task.row? j = d.task.row? j ∧ d'.node.row? j = d.node.row? j ∧
    d'.user.row? j = d.user.row? j

/-- Only the row of the key `i` may differ. -/
def OnlyRow {ρ : Type} [Row ρ Time] (t t' : Table ρ) (i : Int) : Prop :=
  ∀ j, j ≠ i → t'.row? j = t.row? j

/-- At most the row of the key `i` in one of the tables has been written, and nothing logged. -/
structure Wrote (d d' : Database) (i : Int) : Prop where
  task : OnlyRow d.task d'.task i
  node : OnlyRow d.node d'.node i
  user : OnlyRow d.user d'.user i
  log : d'.operationLog = d.operationLog

section Rows

variable {ρ : Type} [Row ρ Time] {t t' : Table ρ} {r : ρ} {now : Time} {i : Int}

theorem OnlyRow.refl (t : Table ρ) (i : Int) : OnlyRow t t i := fun _ _ => rfl

theorem onlyRow_create (t : Table ρ) (r : ρ) (now : Time) :
    OnlyRow t (t.create r now) t.nextId := by
  intro j hj
  rw [Table.row?_create, if_neg hj]

theorem onlyRow_save (h : t.save r now = some t') : OnlyRow t t' (rowId r) := by
  intro j hj
  rw [Table.row?_save h, if_neg hj]

theorem onlyRow_delete (t : Table ρ) (i : Int) (now : Time) : OnlyRow t (t.delete i now) i := by
  intro j hj
  rw [Table.row?_delete]
  simp [hj]

/-- Deleting what is not there changes nothing. -/
theorem row?_delete_of_byId (h : t.byId i = none) (now : Time) (j : Int) :
    (t.delete i now).row? j = t.row? j := by
  rw [Table.row?_delete]
  cases hrow : t.row? j with
  | none => rfl
  | some x =>
    rw [Option.map_some]
    split
    · rename_i hx
      obtain ⟨rfl, hlive⟩ := hx
      rw [Table.byId_eq_none.mp h x hrow] at hlive
      cases hlive
    · rfl

end Rows

section Entries

variable {ext : Externals} {K : State → Op → Choice → Prop} {caller : Caller} {d d' : Database}
  {i : Int}

/-- A request that changes none of the tables needs no entry. -/
theorem SameRows.audited (h : SameRows d d') (caller : Caller) : Audited caller d d' := by
  rintro j (hj | hj | hj)
  · exact absurd (h j).1 hj
  · exact absurd (h j).2.1 hj
  · exact absurd (h j).2.2 hj

theorem SameRows.of_eq (h : d' = d) : SameRows d d' := by
  subst h
  exact fun _ => ⟨rfl, rfl, rfl⟩

/-- Only the row that has been written can be another one. -/
theorem Wrote.eq_of_changed (h : Wrote d d' i) {j : Int} (hj : Changed d d' j) : j = i := by
  by_contra hne
  rcases hj with hj | hj | hj
  · exact hj (h.task j hne)
  · exact hj (h.node j hne)
  · exact hj (h.user j hne)

/-- **The entry of the operation log** audits the write before it, if its user is there. -/
theorem logged_audited (hsure : NoDbFailure K) {s : State} (hwrote : Wrote d s.db i)
    (huser : UserThere s.db caller) (opType remark : String) (reply : Reply) :
    Ensures ext K (addOperationLog caller.userId i opType remark >>= fun _ => pure reply)
      (fun _ s' => Audited caller d s'.db) s := by
  refine Ensures.op fun c r s₁ hK₁ h₁ => ?_
  obtain ⟨-, hr, rfl⟩ := exec_db h₁
  cases r with
  | error err =>
    -- the user would have to be missing
    obtain ⟨u, hu⟩ := huser
    rcases query_error hr.symm with hfail | hnone
    · rw [hsure _ _ _ hK₁] at hfail
      cases hfail
    · rw [hnone] at hu
      cases hu
  | ok info =>
    refine Ensures.op fun c r s₂ hK₂ h₂ => Ensures.pure ?_
    obtain ⟨-, -, rfl⟩ := exec_db h₂
    have hok := hsure _ _ _ hK₂
    simp only [DbOp.exec, statement, hok, Bool.false_eq_true, if_false]
    intro j hj
    have hchanged : Changed d s.db j := hj
    refine ⟨_, List.mem_append_right _ (List.mem_singleton.mpr rfl), ?_, rfl, ?_⟩
    · rw [← hwrote.log]
      exact Int.le_refl _
    · exact (hwrote.eq_of_changed hchanged).symm

/-- An entry without a write does no harm. -/
theorem logged_unwritten {s : State} (hsame : SameRows d s.db) (userId targetId : Int)
    (opType remark : String) (reply : Reply) :
    Ensures ext K (addOperationLog userId targetId opType remark >>= fun _ => pure reply)
      (fun _ s' => Audited caller d s'.db) s := by
  refine Ensures.op fun c r s₁ _ h₁ => ?_
  obtain ⟨-, -, rfl⟩ := exec_db h₁
  cases r with
  | error err => exact Ensures.pure (hsame.audited caller)
  | ok info =>
    refine Ensures.op fun c r s₂ _ h₂ => Ensures.pure ?_
    obtain ⟨-, -, rfl⟩ := exec_db h₂
    apply SameRows.audited
    simp only [DbOp.exec, statement]
    split <;> exact hsame

end Entries

/-! ## The writes -/

section Statements

variable {ext : Externals} {c : Choice} {s s' : State}

theorem nameFree_of_nodeNameFree {nodes : Table Node} {row : Node}
    (h : nodeNameFree nodes row = true) : NameFree nodes row.name row.id := by
  intro n hn hname
  have := List.all_eq_true.mp h n hn
  simpa [hname] using this

theorem wrote_task {d : Database} {tasks : Table Task} {i : Int} (h : OnlyRow d.task tasks i) :
    Wrote d { d with task := tasks } i := ⟨h, .refl _ _, .refl _ _, rfl⟩

theorem wrote_node {d : Database} {nodes : Table Node} {i : Int} (h : OnlyRow d.node nodes i) :
    Wrote d { d with node := nodes } i := ⟨.refl _ _, h, .refl _ _, rfl⟩

theorem wrote_user {d : Database} {users : Table User} {i : Int} (h : OnlyRow d.user users i) :
    Wrote d { d with user := users } i := ⟨.refl _ _, .refl _ _, h, rfl⟩

/-- A statement that has not failed has made of the database what it says. -/
theorem db_of_exec {o : DbOp} {r : o.Res} (h : exec ext (.db o) c s = some (r, s')) :
    o.exec c (s.clock + c.elapsed) s.db = (r, s'.db) := by
  obtain ⟨-, rfl, rfl⟩ := exec_db h
  rfl

theorem createNode_cases {row : Node} {r : Except DbError Node}
    (h : exec ext (.db (.createNode row)) c s = some (r, s')) :
    (∃ err, r = .error err ∧ s'.db = s.db) ∨ ∃ now, r = .ok (s.db.node.inserted row now) ∧
      s'.db = { s.db with node := s.db.node.create row now } ∧ NameFree s.db.node row.name 0 := by
  rcases statement_spec (db_of_exec h) with ⟨err, hr, hd, -⟩ | ⟨-, node, hnode, hr⟩
  · exact .inl ⟨err, hr, hd⟩
  · split at hnode
    · rename_i hfree
      obtain ⟨rfl, hd⟩ := Prod.mk.inj (Option.some.inj hnode)
      exact .inr ⟨_, hr, hd.symm, nameFree_of_nodeNameFree hfree⟩
    · cases hnode

theorem saveNode_cases {row : Node} {r : Except DbError Unit}
    (h : exec ext (.db (.saveNode row)) c s = some (r, s')) :
    (∃ err, r = .error err ∧ s'.db = s.db) ∨ ∃ now nodes, r = .ok () ∧
      s.db.node.save row now = some nodes ∧ s'.db = { s.db with node := nodes } ∧
      NameFree s.db.node row.name row.id := by
  rcases statement_spec (db_of_exec h) with ⟨err, hr, hd, -⟩ | ⟨-, u, hnode, hr⟩
  · exact .inl ⟨err, hr, hd⟩
  · split at hnode
    · rename_i hfree
      obtain ⟨nodes, hsave, heq⟩ := Option.map_eq_some_iff.mp hnode
      exact .inr ⟨_, nodes, hr, hsave, (Prod.mk.inj heq).2.symm, nameFree_of_nodeNameFree hfree⟩
    · cases hnode

theorem deleteNode_cases {id : Int} {r : Except DbError Unit}
    (h : exec ext (.db (.deleteNode id)) c s = some (r, s')) :
    (∃ err, r = .error err ∧ s'.db = s.db) ∨ ∃ now, r = .ok () ∧
      s'.db = { s.db with node := s.db.node.delete id now } := by
  have hexec := db_of_exec h
  simp only [DbOp.exec] at hexec
  rcases statement_spec hexec with ⟨err, hr, hd, -⟩ | ⟨-, u, hnode, hr⟩
  · exact .inl ⟨err, hr, hd⟩
  · exact .inr ⟨_, hr, (Prod.mk.inj (Option.some.inj hnode)).2.symm⟩

theorem createUser_cases {row : User} {r : Except DbError User}
    (h : exec ext (.db (.createUser row)) c s = some (r, s')) :
    (∃ err, r = .error err ∧ s'.db = s.db) ∨ ∃ now, r = .ok (s.db.user.inserted row now) ∧
      s'.db = { s.db with user := s.db.user.create row now } := by
  have hexec := db_of_exec h
  simp only [DbOp.exec] at hexec
  rcases statement_spec hexec with ⟨err, hr, hd, -⟩ | ⟨-, u, huser, hr⟩
  · exact .inl ⟨err, hr, hd⟩
  · obtain ⟨rfl, hd⟩ := Prod.mk.inj (Option.some.inj huser)
    exact .inr ⟨_, hr, hd.symm⟩

theorem saveUser_cases {row : User} {r : Except DbError Unit}
    (h : exec ext (.db (.saveUser row)) c s = some (r, s')) :
    (∃ err, r = .error err ∧ s'.db = s.db) ∨ ∃ now users, r = .ok () ∧
      s.db.user.save row now = some users ∧ s'.db = { s.db with user := users } := by
  rcases statement_spec (db_of_exec h) with ⟨err, hr, hd, -⟩ | ⟨-, u, huser, hr⟩
  · exact .inl ⟨err, hr, hd⟩
  · obtain ⟨users, hsave, heq⟩ := Option.map_eq_some_iff.mp huser
    exact .inr ⟨_, users, hr, hsave, (Prod.mk.inj heq).2.symm⟩

theorem deleteUser_cases {id : Int} {r : Except DbError Unit}
    (h : exec ext (.db (.deleteUser id)) c s = some (r, s')) :
    (∃ err, r = .error err ∧ s'.db = s.db) ∨ ∃ now, r = .ok () ∧
      s'.db = { s.db with user := s.db.user.delete id now } := by
  have hexec := db_of_exec h
  simp only [DbOp.exec] at hexec
  rcases statement_spec hexec with ⟨err, hr, hd, -⟩ | ⟨-, u, huser, hr⟩
  · exact .inl ⟨err, hr, hd⟩
  · exact .inr ⟨_, hr, (Prod.mk.inj (Option.some.inj huser)).2.symm⟩

theorem createTask_cases {row : Task} {r : Except DbError Task}
    (h : exec ext (.db (.createTask row)) c s = some (r, s')) :
    (∃ err, r = .error err ∧ s'.db = s.db) ∨
      ∃ now, r = .ok (s.db.task.inserted row.withDefaults now) ∧
        s'.db = { s.db with task := s.db.task.create row.withDefaults now } := by
  have hexec := db_of_exec h
  simp only [DbOp.exec] at hexec
  rcases statement_spec hexec with ⟨err, hr, hd, -⟩ | ⟨-, t, htask, hr⟩
  · exact .inl ⟨err, hr, hd⟩
  · obtain ⟨rfl, hd⟩ := Prod.mk.inj (Option.some.inj htask)
    exact .inr ⟨_, hr, hd.symm⟩

theorem saveTask_cases {row : Task} {r : Except DbError Unit}
    (h : exec ext (.db (.saveTask row)) c s = some (r, s')) :
    (∃ err, r = .error err ∧ s'.db = s.db) ∨ ∃ now tasks, r = .ok () ∧
      s.db.task.save row now = some tasks ∧ s'.db = { s.db with task := tasks } := by
  rcases statement_spec (db_of_exec h) with ⟨err, hr, hd, -⟩ | ⟨-, t, htask, hr⟩
  · exact .inl ⟨err, hr, hd⟩
  · obtain ⟨tasks, hsave, heq⟩ := Option.map_eq_some_iff.mp htask
    exact .inr ⟨_, tasks, hr, hsave, (Prod.mk.inj heq).2.symm⟩

theorem deleteTask_cases {id : Int} {r : Except DbError Unit}
    (h : exec ext (.db (.deleteTask id)) c s = some (r, s')) :
    (∃ err, r = .error err ∧ s'.db = s.db) ∨ ∃ now, r = .ok () ∧
      s'.db = { s.db with task := s.db.task.delete id now } := by
  have hexec := db_of_exec h
  simp only [DbOp.exec] at hexec
  rcases statement_spec hexec with ⟨err, hr, hd, -⟩ | ⟨-, t, htask, hr⟩
  · exact .inl ⟨err, hr, hd⟩
  · exact .inr ⟨_, hr, (Prod.mk.inj (Option.some.inj htask)).2.symm⟩

/-- What only reads, asks the world, or works on the schedule leaves the database alone. -/
def Aside : Op → Prop
  | .db (.findNodeNamed _ _) | .db (.countNodeTasks _) => True
  | .db (.userInfo _) | .db (.findUserByAccount _) => True
  | .world _ => True
  | o => ManagerWork o

theorem db_of_aside {o : Op} {r : o.Res} (ho : Aside o) (h : exec ext o c s = some (r, s')) :
    s'.db = s.db := by
  cases o with
  | world w =>
    obtain ⟨-, -, rfl⟩ := exec_world h
    rfl
  | sched o =>
    obtain ⟨-, -, rfl⟩ := exec_sched h
    rfl
  | run o => exact ho.elim
  | db o =>
    obtain ⟨-, -, rfl⟩ := exec_db h
    cases o with
    | findTask _ | findNode _ _ | findNodeNamed _ _ | countNodeTasks _ | userInfo _
    | findUserByAccount _ => rfl
    | _ => exact ho.elim

theorem Ensures.of_aside {K : State → Op → Choice → Prop} {α : Type} {p : Program α}
    (hp : p.Uses Aside) (s : State) : Ensures ext K p (fun _ s' => s'.db = s.db) s := by
  apply hp.wp (I := fun s' : State => s'.db = s.db) _ rfl
  intro o s₁ ho hs
  refine ⟨trivial, ?_⟩
  rintro r s₂ ⟨c, -, hexec⟩
  exact (db_of_aside ho hexec).trans hs

/-- The rule of an operation that leaves the database alone. -/
theorem Ensures.aside_bind {K : State → Op → Choice → Prop} {α : Type} {o : Op}
    {f : o.Res → Program α} {Q : α → State → Prop} {d : Database} (ho : Aside o) (hd : s.db = d)
    (h : ∀ c r s', K s o c → exec ext o c s = some (r, s') → s'.db = d → Ensures ext K (f r) Q s') :
    Ensures ext K (Prog.call o >>= f) Q s := by
  refine .call_bind fun c r s' hK hexec => ?_
  exact h c r s' hK hexec ((db_of_aside ho hexec).trans hd)

theorem aside_of_managerWork (o : Op) (h : ManagerWork o) : Aside o := by
  unfold ManagerWork at h
  split at h
  case h_4 => exact h.elim
  all_goals trivial

end Statements

/-! ## The node requests -/

section NodeRequests

variable {ext : Externals} {K : State → Op → Choice → Prop} {s : State}

/-- A node that has been read and is not the master. -/
theorem edge_of_findNode {c : Choice} {s' : State} {nodeId : Int} {nodeModel : Node}
    (h : exec ext (.db (.findNode .nodeRequest nodeId)) c s = some (.ok nodeModel, s'))
    (hmaster : ¬ nodeModel.isMaster = true) :
    nodeModel.id = nodeId ∧ ∃ node, s.db.node.byId nodeId = some node ∧ node.isMaster = false := by
  have hnode := byId_of_findNode h
  exact ⟨(Table.mem_of_byId hnode).2.1, nodeModel, hnode, by simpa using hmaster⟩

/-- A request that has written nothing. -/
theorem unwritten {caller : Caller} {d : Database} {s' : State} (hd : s'.db = d) (reply : Reply) :
    Ensures ext K (pure reply) (fun _ s' => Audited caller d s'.db) s' :=
  Ensures.pure ((SameRows.of_eq hd).audited caller)

theorem addNode_audited (hsure : NoDbFailure K) (caller : Caller) (body : Except String NodeForm)
    (h : Auditable ext s caller (.addNode body)) :
    Ensures ext K (Controller.addNode caller body) (fun _ s' => Audited caller s.db s'.db) s := by
  unfold Controller.addNode
  cases body with
  | error err => exact unwritten rfl _
  | ok addInfo =>
    dsimp only
    split
    · exact unwritten rfl _
    · rename_i hform
      refine Ensures.aside_bind (by trivial) rfl fun c r s₁ _ h₁ hd₁ => ?_
      cases r with
      | ok node => exact unwritten hd₁ _
      | error err =>
        refine Ensures.aside_bind (by trivial) hd₁ fun c secretKey s₂ _ h₂ hd₂ => ?_
        refine .call_bind fun c r s₃ _ h₃ => ?_
        rcases createNode_cases h₃ with ⟨err, rfl, hd⟩ | ⟨now, rfl, hd, hname⟩
        · exact unwritten (hd.trans hd₂) _
        · rw [hd₂] at hd hname ⊢
          obtain ⟨huser, -⟩ := h ⟨hform, hname⟩
          apply logged_audited hsure
          · rw [hd]
            exact wrote_node (onlyRow_create _ _ _)
          · rw [hd]
            exact huser

theorem editNode_audited (hsure : NoDbFailure K) (caller : Caller) (nodeId : Int)
    (body : Except String NodeForm) (h : Auditable ext s caller (.editNode nodeId body)) :
    Ensures ext K (Controller.editNode caller nodeId body)
      (fun _ s' => Audited caller s.db s'.db) s := by
  unfold Controller.editNode
  cases body with
  | error err => exact unwritten rfl _
  | ok editInfo =>
    refine Ensures.aside_bind (by trivial) rfl fun c r s₁ _ h₁ hd₁ => ?_
    cases r with
    | error err => exact unwritten hd₁ _
    | ok nodeModel =>
      dsimp only
      split
      · exact unwritten hd₁ _
      · rename_i hmaster
        obtain ⟨hid, hedge⟩ := edge_of_findNode h₁ hmaster
        split
        · exact unwritten hd₁ _
        · rename_i hform
          refine Ensures.aside_bind (by trivial) hd₁ fun c r s₂ _ h₂ hd₂ => ?_
          cases r with
          | ok node => exact unwritten hd₂ _
          | error err =>
            refine .call_bind fun c r s₃ _ h₃ => ?_
            rcases saveNode_cases h₃ with ⟨err, rfl, hd⟩ | ⟨now, nodes, rfl, hsave, hd, hname⟩
            · exact unwritten (hd.trans hd₂) _
            · rw [hd₂] at hsave hd hname
              obtain ⟨huser, -⟩ := h ⟨hedge, hform, hid ▸ hname⟩
              apply logged_audited hsure
              · rw [hd]
                exact wrote_node (onlyRow_save hsave)
              · rw [hd]
                exact huser

theorem deleteNode_audited (hsure : NoDbFailure K) (caller : Caller) (nodeId : Int)
    (h : Auditable ext s caller (.deleteNode nodeId)) :
    Ensures ext K (Controller.deleteNode caller nodeId)
      (fun _ s' => Audited caller s.db s'.db) s := by
  refine Ensures.aside_bind (by trivial) rfl fun c r s₁ _ h₁ hd₁ => ?_
  cases r with
  | error err => exact unwritten hd₁ _
  | ok nodeModel =>
    dsimp only
    split
    · exact unwritten hd₁ _
    · rename_i hmaster
      obtain ⟨hid, hedge⟩ := edge_of_findNode h₁ hmaster
      refine Ensures.aside_bind (by trivial) hd₁ fun c taskCount s₂ hK₂ h₂ hd₂ => ?_
      split
      · exact unwritten hd₂ _
      · rename_i hcount
        -- the count is that of the live tasks of the node
        have hnone : s.db.task.find (fun t => t.nodeID == nodeId) = [] := by
          obtain ⟨-, rfl, -⟩ := exec_db h₂
          simp only [DbOp.exec, hsure _ _ _ hK₂, Bool.false_eq_true, if_false, hd₁] at hcount
          exact List.length_eq_zero_iff.mp (Nat.eq_zero_of_not_pos hcount)
        refine .call_bind fun c r s₃ _ h₃ => ?_
        rcases deleteNode_cases h₃ with ⟨err, rfl, hd⟩ | ⟨now, rfl, hd⟩
        · exact unwritten (hd.trans hd₂) _
        · rw [hd₂] at hd
          obtain ⟨huser, -⟩ := h ⟨hedge, hnone⟩
          apply logged_audited hsure
          · rw [hd]
            exact wrote_node (onlyRow_delete _ _ _)
          · rw [hd]
            exact huser

/-- No entry is written for a new key, so the request may only be one that is refused. -/
theorem regenerateNodeKey_audited (caller : Caller) (nodeId : Int)
    (h : Auditable ext s caller (.regenerateNodeKey nodeId)) :
    Ensures ext K (Controller.regenerateNodeKey nodeId)
      (fun _ s' => Audited caller s.db s'.db) s := by
  refine Ensures.aside_bind (by trivial) rfl fun c r s₁ _ h₁ hd₁ => ?_
  cases r with
  | error err => exact unwritten hd₁ _
  | ok nodeModel =>
    have hnode := byId_of_findNode h₁
    dsimp only
    split
    · exact unwritten hd₁ _
    · rename_i hmaster
      refine Ensures.aside_bind (by trivial) hd₁ fun c secretKey s₂ _ h₂ hd₂ => ?_
      refine .call_bind fun c r s₃ _ h₃ => ?_
      rcases saveNode_cases h₃ with ⟨err, rfl, hd⟩ | ⟨now, nodes, rfl, hsave, hd, hname⟩
      · exact unwritten (hd.trans hd₂) _
      · rw [hd₂] at hname
        exact (h ⟨nodeModel, hnode, by simpa using hmaster, hname⟩).2.elim

theorem deployNodeWith_audited (hsure : NoDbFailure K) (caller : Caller) (form : DeployForm)
    (h : EdgeThere s.db.node form.nodeID → UserThere s.db caller) :
    Ensures ext K (deployNodeWith ext caller form) (fun _ s' => Audited caller s.db s'.db) s := by
  refine Ensures.aside_bind (by trivial) rfl fun c r s₁ _ h₁ hd₁ => ?_
  cases r with
  | error err => exact unwritten hd₁ _
  | ok nodeModel =>
    have hnode := byId_of_findNode h₁
    dsimp only
    split
    · exact unwritten hd₁ _
    · rename_i hmaster
      refine Ensures.aside_bind (by trivial) hd₁ fun c r s₂ _ h₂ hd₂ => ?_
      cases r with
      | error err => exact unwritten hd₂ _
      | ok _ =>
        refine (Ensures.of_aside (collectRemoteSystemInfo_uses fun _ => trivial) _).bind
          fun sysInfo s₃ hd₃ => ?_
        refine (Ensures.of_aside (executeDeployCommands_uses (fun _ => trivial) _ _) _).bind
          fun deployLog s₄ hd₄ => ?_
        have hd : s₄.db = s.db := hd₄.trans (hd₃.trans hd₂)
        refine .call_bind fun c r s₅ _ h₅ => ?_
        rcases saveNode_cases h₅ with ⟨err, -, hd₅⟩ | ⟨now, nodes, -, hsave, hd₅, hname⟩
        · exact logged_unwritten (.of_eq (hd₅.trans hd)) _ _ _ _ _
        · rw [hd] at hsave hd₅ hname
          have huser := h ⟨nodeModel, hnode, by simpa using hmaster, hname⟩
          apply logged_audited hsure
          · rw [hd₅]
            exact wrote_node (onlyRow_save hsave)
          · rw [hd₅]
            exact huser

theorem deployNode_audited (hsure : NoDbFailure K) (caller : Caller)
    (body : Except String DeployForm) (h : Auditable ext s caller (.deployNode body)) :
    Ensures ext K (Controller.deployNode ext caller body)
      (fun _ s' => Audited caller s.db s'.db) s := by
  unfold Controller.deployNode
  cases body with
  | error err => exact unwritten rfl _
  | ok form =>
    dsimp only
    split
    · exact unwritten rfl _
    · rename_i hhost
      split
      · exact unwritten rfl _
      · rename_i huser
        split
        · exact unwritten rfl _
        · rename_i hpassword
          split
          · exact unwritten rfl _
          · rename_i hpath
            split
            · apply deployNodeWith_audited hsure
              exact fun hedge => (h ⟨⟨hhost, huser, hpassword, hpath⟩, hedge⟩).1
            · exact unwritten rfl _

theorem deployNewNodeWith_audited (hsure : NoDbFailure K) (caller : Caller) (form : DeployNewForm)
    (h : NameFree s.db.node form.name 0 → UserThere s.db caller) :
    Ensures ext K (deployNewNodeWith ext caller form)
      (fun _ s' => Audited caller s.db s'.db) s := by
  refine Ensures.aside_bind (by trivial) rfl fun c r s₁ _ h₁ hd₁ => ?_
  cases r with
  | ok node => exact unwritten hd₁ _
  | error err =>
    refine Ensures.aside_bind (by trivial) hd₁ fun c r s₂ _ h₂ hd₂ => ?_
    cases r with
    | error err => exact unwritten hd₂ _
    | ok _ =>
      refine (Ensures.of_aside (collectRemoteSystemInfo_uses fun _ => trivial) _).bind
        fun sysInfo s₃ hd₃ => ?_
      refine Ensures.aside_bind (by trivial) (hd₃.trans hd₂) fun c secretKey s₄ _ h₄ hd₄ => ?_
      refine .call_bind fun c r s₅ _ h₅ => ?_
      rcases createNode_cases h₅ with ⟨err, rfl, hd⟩ | ⟨now, rfl, hd, hname⟩
      · exact unwritten (hd.trans hd₄) _
      · rw [hd₄] at hd hname ⊢
        refine (Ensures.of_aside (executeDeployCommands_uses (fun _ => trivial) _ _) _).bind
          fun deployLog s₆ hd₆ => ?_
        apply logged_audited hsure
        · rw [hd₆, hd]
          exact wrote_node (onlyRow_create _ _ _)
        · rw [hd₆, hd]
          exact h hname

theorem deployNewNode_audited (hsure : NoDbFailure K) (caller : Caller)
    (body : Except String DeployNewForm) (h : Auditable ext s caller (.deployNewNode body)) :
    Ensures ext K (Controller.deployNewNode ext caller body)
      (fun _ s' => Audited caller s.db s'.db) s := by
  unfold Controller.deployNewNode
  cases body with
  | error err => exact unwritten rfl _
  | ok form =>
    dsimp only
    split
    · exact unwritten rfl _
    · split
      · exact unwritten rfl _
      · rename_i hhost
        split
        · exact unwritten rfl _
        · rename_i hcredentials
          obtain ⟨huser, hpassword⟩ := not_or.mp hcredentials
          split
          · exact unwritten rfl _
          · rename_i hpath
            apply deployNewNodeWith_audited hsure
            exact fun hname => (h ⟨⟨hhost, huser, hpassword, hpath⟩, hname⟩).1

end NodeRequests

/-! ## The user requests -/

section UserRequests

variable {ext : Externals} {K : State → Op → Choice → Prop} {s : State}

theorem addUser_audited (hsure : NoDbFailure K) (caller : Caller) (body : Except String NewUserForm)
    (h : Auditable ext s caller (.addUser body)) :
    Ensures ext K (Controller.addUser caller body) (fun _ s' => Audited caller s.db s'.db) s := by
  unfold Controller.addUser
  cases body with
  | error err => exact unwritten rfl _
  | ok form =>
    dsimp only
    split
    · exact unwritten rfl _
    · rename_i hpassword
      split
      · exact unwritten rfl _
      · rename_i hlong
        refine Ensures.aside_bind (by trivial) rfl fun c r s₁ _ h₁ hd₁ => ?_
        cases r with
        | error err => exact unwritten hd₁ _
        | ok hashedPassword =>
          unfold registerNewUser
          dsimp only
          split
          · exact unwritten hd₁ _
          · refine Ensures.aside_bind (by trivial) hd₁ fun c r s₂ hK₂ h₂ hd₂ => ?_
            cases r with
            | ok found => exact unwritten hd₂ _
            | error err =>
              cases err with
              | failure text => exact unwritten hd₂ _
              | recordNotFound =>
                -- the account is free
                have hfree : s.db.user.Free User.loginAccount form.loginAccount := by
                  obtain ⟨-, hr, -⟩ := exec_db h₂
                  rcases query_error hr.symm with hfail | hnone
                  · rw [hsure _ _ _ hK₂] at hfail
                    cases hfail
                  · exact hd₁ ▸ Table.free_of_first hnone
                refine .call_bind fun c r s₃ _ h₃ => ?_
                rcases createUser_cases h₃ with ⟨err, rfl, hd⟩ | ⟨now, rfl, hd⟩
                · exact unwritten (hd.trans hd₂) _
                · rw [hd₂] at hd ⊢
                  obtain ⟨⟨u, hu⟩, -⟩ := h ⟨⟨not_not.mp hpassword, hlong⟩, hfree⟩
                  apply logged_audited hsure
                  · rw [hd]
                    exact wrote_user (onlyRow_create _ _ _)
                  · -- the caller is another user
                    have hne : caller.userId ≠ s.db.user.nextId :=
                      Int.ne_of_lt (Table.rowId_lt_nextId (Table.byId_eq_some.mp hu).1)
                    refine ⟨u, ?_⟩
                    rw [hd, Table.byId_create, if_neg hne]
                    exact hu

theorem editUser_audited (hsure : NoDbFailure K) (caller : Caller) (userId : Int)
    (body : Except String UserForm) (h : Auditable ext s caller (.editUser userId body)) :
    Ensures ext K (Controller.editUser caller userId body)
      (fun _ s' => Audited caller s.db s'.db) s := by
  unfold Controller.editUser
  cases body with
  | error err => exact unwritten rfl _
  | ok form =>
    refine Ensures.aside_bind (by trivial) rfl fun c r s₁ _ h₁ hd₁ => ?_
    cases r with
    | error err => exact unwritten hd₁ _
    | ok userModel =>
      have hmodel : s.db.user.byId userId = some userModel := by
        obtain ⟨-, hr, -⟩ := exec_db h₁
        exact query_ok hr.symm
      dsimp only
      split
      · exact unwritten hd₁ _
      · rename_i hlong
        split
        · exact unwritten hd₁ _
        · rename_i hpassword
          refine Ensures.aside_bind (by trivial) hd₁ fun c r s₂ _ h₂ hd₂ => ?_
          cases r with
          | error err => exact unwritten hd₂ _
          | ok hashedPassword =>
            refine .call_bind fun c r s₃ _ h₃ => ?_
            rcases saveUser_cases h₃ with ⟨err, rfl, hd⟩ | ⟨now, users, rfl, hsave, hd⟩
            · exact unwritten (hd.trans hd₂) _
            · rw [hd₂] at hsave hd
              obtain ⟨⟨u, hu⟩, -⟩ := h ⟨⟨userModel, hmodel⟩, not_not.mp hpassword, hlong⟩
              apply logged_audited hsure
              · rw [hd]
                exact wrote_user (onlyRow_save hsave)
              · -- the caller may be the user himself, who stays
                have hlive : live userModel = true := (Table.mem_of_byId hmodel).2.2
                rw [UserThere, hd, Table.byId_save hsave hlive]
                split
                · exact ⟨_, rfl⟩
                · exact ⟨u, hu⟩

/-- The entry names the user 0, so the request may only be one that deletes nobody. -/
theorem deleteUser_audited (caller : Caller) (userId : Int)
    (h : Auditable ext s caller (.deleteUser userId)) :
    Ensures ext K (Controller.deleteUser caller userId)
      (fun _ s' => Audited caller s.db s'.db) s := by
  have hnone : s.db.user.byId userId = none := by
    cases hu : s.db.user.byId userId with
    | none => rfl
    | some u => exact (h ⟨u, hu⟩).2.elim
  refine .call_bind fun c r s₁ _ h₁ => ?_
  rcases deleteUser_cases h₁ with ⟨err, rfl, hd⟩ | ⟨now, rfl, hd⟩
  · exact unwritten hd _
  · apply logged_unwritten
    rw [hd]
    exact fun j => ⟨rfl, rfl, row?_delete_of_byId hnone now j⟩

end UserRequests

/-! ## The task requests -/

section TaskRequests

variable {ext : Externals} {K : State → Op → Choice → Prop} {s : State}

/-- After a statement on the task table. -/
theorem view_of_tasks {o : DbOp} {c : Choice} {r : o.Res} {s s' : State} {tasks : Table Task}
    (h : exec ext (.db o) c s = some (r, s')) (hd : s'.db = { s.db with task := tasks }) :
    s'.view = { s.view with tasks := tasks } := by
  obtain ⟨-, -, rfl⟩ := exec_db h
  simp only [State.view] at hd ⊢
  rw [hd]

theorem lookup_unschedule (v : View) (taskId : Int) :
    (v.unschedule taskId).taskList.lookup taskId = none := by
  unfold View.unschedule
  split
  · assumption
  · exact AList.lookup_erase _ _

/-- A part of a request that works on the schedule. -/
theorem aside_and {α : Type} {p : Program α} {Q : α → State → Prop}
    (hp : Ensures ext K p Q s) (huses : p.Uses ManagerWork) :
    Ensures ext K p (fun a s' => Q a s' ∧ s'.db = s.db) s :=
  hp.and (Ensures.of_aside (huses.mono aside_of_managerWork) s)

/-- `Manager.AddTask` does not fail for a live task that is not listed, if it is startable. -/
theorem managerAddTask_ok (hsure : NoDbFailure K) {taskId : Int} {row : Task}
    (hnone : s.view.taskList.lookup taskId = none) (hrow : s.view.tasks.byId taskId = some row)
    (h : Startable ext s.view row) :
    Ensures ext K (Gonitor.Task.addTask taskId) (fun r _ => r = .ok ()) s := by
  refine (taskListGet_spec taskId s).bind ?_
  rintro r s₁ ⟨h₁, hr⟩
  rw [hnone] at hr
  subst hr
  refine (findTask_spec taskId s₁).bind ?_
  rintro r s₂ ⟨h₂, hfound, hmissing⟩
  rw [h₁] at h₂ hfound hmissing
  cases r with
  | error err =>
    rw [hmissing err rfl hsure] at hrow
    cases hrow
  | ok task =>
    obtain rfl : row = task := Option.some.inj (hrow.symm.trans (hfound task rfl))
    dsimp only
    split
    · exact Ensures.pure rfl
    · rename_i henabled
      refine (managerIsLocalTask_exact hsure row s₂).bind ?_
      rintro isLocal s₃ ⟨h₃, hlocal⟩
      rw [h₂] at hlocal
      split
      · rename_i hyes
        refine (startInstance_exact taskId row s₃).mono ?_
        rintro r s₄ (⟨-, rfl, -⟩ | ⟨hparse, -, -⟩)
        · rfl
        · -- cron would have to refuse the schedule
          rcases h with hdisabled | hremote | hparses
          · exact absurd hdisabled henabled
          · exact absurd (hlocal.mp hyes) hremote
          · rw [hparses] at hparse
            cases hparse
      · exact Ensures.pure rfl

/-- Neither does `SyncTaskToNode`, if the node of the task is there. -/
theorem syncTaskToNode_ok (hsure : NoDbFailure K) {taskId : Int} {row : Task}
    (hnone : s.view.taskList.lookup taskId = none) (hrow : s.view.tasks.byId taskId = some row)
    (hnode : row.nodeID ≠ 0 → ∃ node, s.view.nodes.byId row.nodeID = some node)
    (h : Startable ext s.view row) :
    Ensures ext K (syncTaskToNode taskId) (fun r _ => r = .ok ()) s := by
  have hadd : ∀ s₁ : State, s₁.view = s.view →
      Ensures ext K (Gonitor.Task.addTask taskId) (fun r _ => r = .ok ()) s₁ := by
    intro s₁ h₁
    rw [← h₁] at hnone hrow h
    exact managerAddTask_ok hsure hnone hrow h
  refine (findTask_spec taskId s).bind ?_
  rintro r s₁ ⟨h₁, hfound, hmissing⟩
  cases r with
  | error err =>
    rw [hmissing err rfl hsure] at hrow
    cases hrow
  | ok taskModel =>
    obtain rfl : row = taskModel := Option.some.inj (hrow.symm.trans (hfound taskModel rfl))
    dsimp only
    split
    · exact hadd s₁ h₁
    · rename_i hne
      refine (findNode_exact .syncTaskToNode row.nodeID s₁).bind ?_
      rintro r s₂ ⟨h₂, -, hgone⟩
      rw [h₁] at h₂ hgone
      cases r with
      | error err =>
        obtain ⟨node, hnode⟩ := hnode hne
        rw [hgone err rfl hsure] at hnode
        cases hnode
      | ok nodeModel =>
        dsimp only
        split
        · exact hadd s₂ h₂
        · exact Ensures.pure rfl

theorem addTask_audited (hsure : NoDbFailure K) (caller : Caller)
    (body : Except String TaskMutationPayload)
    (hnone : s.view.taskList.lookup s.view.tasks.nextId = none)
    (h : Auditable ext s caller (.addTask body)) :
    Ensures ext K (Controller.addTask ext caller body)
      (fun _ s' => Audited caller s.db s'.db) s := by
  unfold Controller.addTask
  cases body with
  | error err => exact unwritten rfl _
  | ok addInfo =>
    refine (aside_and (validateTaskMutationPayload_spec 0 addInfo s)
      (validate_managerWork ext 0 addInfo)).bind ?_
    rintro r s₁ ⟨⟨hv₁, haccepted, -⟩, hd₁⟩
    cases r with
    | some err => exact unwritten hd₁ _
    | none =>
      refine .call_bind fun c r s₂ _ h₂ => ?_
      rcases createTask_cases h₂ with ⟨err, rfl, hd⟩ | ⟨now, rfl, hd⟩
      · exact unwritten (hd.trans hd₁) _
      · have hv := view_of_tasks h₂ hd
        rw [hd₁] at hd hv ⊢
        rw [hv₁] at hv
        obtain ⟨huser, hnode, hstart⟩ := h (haccepted rfl)
        have hrow : s₂.view.tasks.byId s.db.task.nextId = some (s.db.task.inserted
            (addInfo.apply { toStamps := Base.zero }).withDefaults now) := by
          rw [hv]
          exact (Table.byId_create _ _ _ _).trans (if_pos rfl)
        refine (aside_and (syncTaskToNode_ok hsure ?_ hrow ?_ ?_)
          (syncTaskToNode_managerWork _)).bind ?_
        · rw [hv]
          exact hnone
        · rw [hv]
          exact hnode
        · rw [hv]
          exact hstart
        · rintro _ s₃ ⟨rfl, hd₃⟩
          apply logged_audited hsure
          · rw [hd₃, hd]
            exact wrote_task (onlyRow_create _ _ _)
          · rw [hd₃, hd]
            exact huser

theorem editTask_audited (hsure : NoDbFailure K) (caller : Caller) (taskId : Int)
    (body : Except String TaskMutationPayload)
    (h : Auditable ext s caller (.editTask taskId body)) :
    Ensures ext K (Controller.editTask ext caller taskId body)
      (fun _ s' => Audited caller s.db s'.db) s := by
  unfold Controller.editTask
  cases body with
  | error err => exact unwritten rfl _
  | ok editInfo =>
    refine Ensures.aside_bind (by trivial) rfl fun c r s₁ _ h₁ hd₁ => ?_
    cases r with
    | error err => exact unwritten hd₁ _
    | ok taskModel =>
      have hmodel := byId_of_findTask h₁
      obtain ⟨-, rfl, hlive⟩ := Table.mem_of_byId hmodel
      have hv₁ := view_of_keepsView (show (Op.db (.findTask (rowId taskModel))).KeepsView
        from trivial) h₁
      refine (aside_and (validateTaskMutationPayload_spec taskModel.id editInfo s₁)
        (validate_managerWork ext taskModel.id editInfo)).bind ?_
      rintro r s₂ ⟨⟨hv₂, haccepted, -⟩, hd₂⟩
      rw [hv₁] at hv₂ haccepted
      rw [hd₁] at hd₂
      cases r with
      | some err => exact unwritten hd₂ _
      | none =>
        refine .call_bind fun c r s₃ _ h₃ => ?_
        rcases saveTask_cases h₃ with ⟨err, rfl, hd⟩ | ⟨now, tasks, rfl, hsave, hd⟩
        · exact unwritten (hd.trans hd₂) _
        · have hv := view_of_tasks h₃ hd
          rw [hd₂] at hsave hd
          rw [hv₂] at hv
          obtain ⟨huser, hstart⟩ := h ⟨⟨taskModel, hmodel⟩, haccepted rfl⟩
          -- from here on only the entry is written
          have hlogged : ∀ s' : State, s'.db = s₃.db →
              Ensures ext K (editTaskDone caller (editInfo.apply taskModel) editInfo)
                (fun _ s' => Audited caller s.db s'.db) s' := by
            intro s' hd'
            rw [hd] at hd'
            apply logged_audited hsure
            · rw [hd']
              exact wrote_task (onlyRow_save hsave)
            · rw [hd']
              exact huser
          refine (aside_and (deleteTask_spec _ s₃)
            ((managerDeleteTask_stopWork _).mono managerWork_of_stopWork)).bind ?_
          rintro _ s₄ ⟨hv₄, hd₄⟩
          refine (aside_and (controllerIsLocalTask_exact hsure _ s₄)
            (isLocalTask_managerWork _)).bind ?_
          rintro isLocal s₅ ⟨⟨hv₅, -⟩, hd₅⟩
          have hd' : s₅.db = s₃.db := hd₅.trans hd₄
          split
          · have hnodes : s₅.view.nodes = s.view.nodes := by
              rw [hv₅, hv₄, (sameTables_unschedule _ _).2, hv]
            have hrow : s₅.view.tasks.byId (editInfo.apply taskModel).id =
                some (Table.saved (editInfo.apply taskModel) now) := by
              rw [hv₅, hv₄, (sameTables_unschedule _ _).1, hv]
              exact (Table.byId_save hsave hlive _).trans (if_pos rfl)
            refine (aside_and (managerAddTask_ok hsure ?_ hrow ?_)
              (managerAddTask_managerWork _)).bind ?_
            · rw [hv₅, hv₄]
              exact lookup_unschedule _ _
            · rw [Startable, View.IsLocal, hnodes]
              exact hstart
            · rintro _ s₆ ⟨rfl, hd₆⟩
              exact hlogged s₆ (hd₆.trans hd')
          · exact hlogged s₅ hd'

theorem stopTask_audited (hsure : NoDbFailure K) (caller : Caller) (taskId : Int)
    (h : Auditable ext s caller (.stopTask taskId)) :
    Ensures ext K (Controller.stopTask caller taskId)
      (fun _ s' => Audited caller s.db s'.db) s := by
  refine Ensures.aside_bind (by trivial) rfl fun c r s₁ _ h₁ hd₁ => ?_
  cases r with
  | error err => exact unwritten hd₁ _
  | ok taskModel =>
    have hmodel := byId_of_findTask h₁
    obtain ⟨huser, -⟩ := h ⟨taskModel, hmodel⟩
    refine (Ensures.of_aside (((managerDeleteTask_stopWork taskId).mono
      managerWork_of_stopWork).mono aside_of_managerWork) s₁).bind fun _ s₂ hd₂ => ?_
    rw [hd₁] at hd₂
    refine .call_bind fun c r s₃ _ h₃ => ?_
    rcases saveTask_cases h₃ with ⟨err, rfl, hd⟩ | ⟨now, tasks, rfl, hsave, hd⟩
    · exact logged_unwritten (.of_eq (hd.trans hd₂)) _ _ _ _ _
    · rw [hd₂] at hsave hd
      apply logged_audited hsure
      · rw [hd]
        exact wrote_task (onlyRow_save hsave)
      · rw [hd]
        exact huser

theorem startTask_audited (hsure : NoDbFailure K) (caller : Caller) (taskId : Int)
    (h : Auditable ext s caller (.startTask taskId)) :
    Ensures ext K (Controller.startTask caller taskId)
      (fun _ s' => Audited caller s.db s'.db) s := by
  refine Ensures.aside_bind (by trivial) rfl fun c r s₁ _ h₁ hd₁ => ?_
  cases r with
  | error err => exact unwritten hd₁ _
  | ok taskModel =>
    have hmodel := byId_of_findTask h₁
    obtain ⟨-, rfl, hlive⟩ := Table.mem_of_byId hmodel
    have hv₁ := view_of_keepsView (show (Op.db (.findTask (rowId taskModel))).KeepsView
      from trivial) h₁
    obtain ⟨huser, hnone, hstart⟩ := h ⟨taskModel, hmodel⟩
    refine .call_bind fun c r s₂ _ h₂ => ?_
    rcases saveTask_cases h₂ with ⟨err, rfl, hd⟩ | ⟨now, tasks, rfl, hsave, hd⟩
    · exact unwritten (hd.trans hd₁) _
    · have hv := view_of_tasks h₂ hd
      rw [hd₁] at hsave hd
      rw [hv₁] at hv
      have hrow : s₂.view.tasks.byId (rowId taskModel) =
          some (Table.saved { taskModel with isDisable := false } now) := by
        rw [hv]
        exact (Table.byId_save hsave hlive _).trans (if_pos rfl)
      refine (aside_and (managerAddTask_ok hsure ?_ hrow ?_)
        (managerAddTask_managerWork _)).bind ?_
      · rw [hv]
        exact hnone
      · rw [hv]
        exact hstart taskModel hmodel
      · rintro _ s₃ ⟨rfl, hd₃⟩
        apply logged_audited hsure
        · rw [hd₃, hd]
          exact wrote_task (onlyRow_save hsave)
        · rw [hd₃, hd]
          exact huser

theorem deleteTask_audited (hsure : NoDbFailure K) (caller : Caller) (taskId : Int)
    (h : Auditable ext s caller (.deleteTask taskId)) :
    Ensures ext K (Controller.deleteTask caller taskId)
      (fun _ s' => Audited caller s.db s'.db) s := by
  refine Ensures.aside_bind (by trivial) rfl fun c r s₁ _ h₁ hd₁ => ?_
  cases r with
  | error err => exact unwritten hd₁ _
  | ok taskModel =>
    have hmodel := byId_of_findTask h₁
    obtain ⟨huser, -⟩ := h ⟨taskModel, hmodel⟩
    refine .call_bind fun c r s₂ _ h₂ => ?_
    rcases deleteTask_cases h₂ with ⟨err, rfl, hd⟩ | ⟨now, rfl, hd⟩
    · exact unwritten (hd.trans hd₁) _
    · rw [hd₁] at hd
      apply logged_audited hsure
      · rw [hd]
        exact wrote_task (onlyRow_delete _ _ _)
      · rw [hd]
        exact huser

/-- The operation writes no user. -/
def KeepsUsers : Op → Prop
  | .db (.createUser _) | .db (.saveUser _) | .db (.deleteUser _) => False
  | _ => True

theorem users_of_exec {o : Op} {c : Choice} {r : o.Res} {s s' : State} (ho : KeepsUsers o)
    (h : exec ext o c s = some (r, s')) : s'.db.user = s.db.user := by
  have hstep := (accountStep_of_exec h).1
  generalize s'.db.user = users', s'.db.userToken = tokens' at hstep ⊢
  cases hstep with
  | same | tokensDeleted | tokenCreated => rfl
  | created | saved | deleted => exact ho.elim

theorem keepsUsers_of_managerWork (o : Op) (h : ManagerWork o) : KeepsUsers o := by
  unfold ManagerWork at h
  split at h
  case h_4 => exact h.elim
  all_goals trivial

theorem insertItems_keepsUsers (items : List TaskTransferItem) (oldToNew : OldToNew)
    (createdTasks : List Task) :
    (insertItems ext items oldToNew createdTasks).Uses KeepsUsers := by
  induction items generalizing oldToNew createdTasks with
  | nil => trivial
  | cons item items ih =>
    apply ((validate_managerWork ext 0 item.payload).mono keepsUsers_of_managerWork).bind
    intro r
    cases r with
    | some err => exact Prog.Uses.call_bind trivial fun _ => trivial
    | none =>
      refine Prog.Uses.call_bind trivial fun r => ?_
      cases r with
      | error err => exact Prog.Uses.call_bind trivial fun _ => trivial
      | ok taskModel => exact ih _ _

theorem linkItems_keepsUsers (oldToNew : OldToNew) (pairs : List (TaskTransferItem × Task)) :
    (linkItems oldToNew pairs).Uses KeepsUsers := by
  induction pairs with
  | nil => trivial
  | cons p pairs ih =>
    rw [linkItems]
    split
    · exact ih.bind fun _ => trivial
    · have hresolve : (resolveDependency oldToNew p.1.dependsOnTaskID).Uses KeepsUsers := by
        unfold resolveDependency
        split
        · trivial
        · refine Prog.Uses.call_bind trivial fun r => ?_
          cases r <;> trivial
      apply hresolve.bind
      intro r
      cases r with
      | none => exact Prog.Uses.call_bind trivial fun _ => trivial
      | some dependencyID =>
        dsimp only
        split
        · exact Prog.Uses.call_bind trivial fun _ => trivial
        · refine Prog.Uses.call_bind trivial fun r => ?_
          cases r with
          | error err => exact Prog.Uses.call_bind trivial fun _ => trivial
          | ok _ => exact ih.bind fun _ => trivial

theorem importTaskItems_users (items : List TaskTransferItem) (s : State) :
    Ensures ext K (importTaskItems ext items) (fun _ s' => s'.db.user = s.db.user) s := by
  have huses : (importTaskItems ext items).Uses KeepsUsers := by
    refine Prog.Uses.call_bind trivial fun r => ?_
    cases r with
    | error err => trivial
    | ok _ =>
      apply (insertItems_keepsUsers items ∅ []).bind
      intro r
      cases r with
      | error err => trivial
      | ok res =>
        apply (linkItems_keepsUsers res.1 (items.zip res.2)).bind
        intro r
        cases r with
        | error err => trivial
        | ok tasks =>
          refine Prog.Uses.call_bind trivial fun r => ?_
          cases r <;> trivial
  apply huses.wp (I := fun s' : State => s'.db.user = s.db.user) _ rfl
  intro o s₁ ho hs
  refine ⟨trivial, ?_⟩
  rintro r s₂ ⟨c, -, hexec⟩
  exact (users_of_exec ho hexec).trans hs

/-- New rows get the next keys. -/
theorem grown_of_changes {nodes : Table Node} {tasks tasks' : Table Task}
    (h : TaskChanges ext K nodes tasks tasks') : tasks.Grown tasks' := by
  apply h.invariant (P := fun t => tasks.Grown t) _ (.refl tasks)
  intro t t' hgrown hchange
  cases hchange with
  | created _ _ => exact hgrown.create _ _
  | saved _ _ _ hsave => exact hgrown.save hsave
  | deleted _ => exact hgrown.mapRows _

/-- What has been imported could be. -/
theorem Imports.importing {nodes : Table Node} {items : List TaskTransferItem}
    {tasks tasks' : Table Task} {rows : List Task}
    (h : Imports ext K nodes items tasks rows tasks') : Importing ext tasks items where
  importable := by
    have heach : List.Forall₂ (fun item _ => Importable ext item ∧ True) items rows :=
      h.each.imp fun item row hrow => ⟨hrow.importable, trivial⟩
    exact ((List.forall₂_and_left items rows).mp heach).1
  linkable := by
    refine ⟨rows, tasks', h.rows_eq, ?_, ?_, ?_⟩
    · have heach : List.Forall₂ (fun row _ => live row = true ∧ True) rows items :=
        h.each.flip.imp fun row item hrow => ⟨hrow.live, trivial⟩
      exact ((List.forall₂_and_left rows items).mp heach).1
    · rw [(grown_of_changes h.changes).keys_eq h.rows_eq, h.each.length_eq]
    · intro p hp hdep
      have hrow := (List.forall₂_iff_zip.mp h.each).2 hp
      exact ⟨p.2.dependsOnTaskID, hrow.dependency hdep⟩

/-- No entry is written for the new tasks, so the request may only be one that is refused. -/
theorem importTasks_audited (caller : Caller) (body : Except String (List TaskTransferItem))
    (h : Auditable ext s caller (.importTasks body)) :
    Ensures ext K (Controller.importTasks ext body)
      (fun _ s' => Audited caller s.db s'.db) s := by
  unfold Controller.importTasks
  cases body with
  | error err => exact unwritten rfl _
  | ok items =>
    dsimp only
    split
    · exact unwritten rfl _
    · rename_i hitems
      refine ((importTaskItems_spec items s).and (importTaskItems_users items s)).bind ?_
      rintro _ s' ⟨⟨err, rfl, hview, -⟩ | ⟨created, rows, tasks, rfl, -, himports⟩, husers⟩
      · apply Ensures.pure
        apply SameRows.audited
        have htask : s'.db.task = s.db.task := by
          rcases hview with h | h
          · exact congrArg View.tasks h
          · exact congrArg View.tasks h
        have hnode : s'.db.node = s.db.node := by
          rcases hview with h | h
          · exact congrArg View.nodes h
          · exact congrArg View.nodes h
        rw [SameRows, htask, hnode, husers]
        exact fun _ => ⟨rfl, rfl, rfl⟩
      · exact (h ⟨by simpa using hitems, himports.importing⟩).2.elim

end TaskRequests

/-! ## All requests -/

section History

variable {ext : Externals} {K : State → Op → Choice → Prop}

/-- The requests that change the task, the node or the user table. -/
def Mutating (req : Request) : Prop :=
  req.isTaskRequest = true ∨ req.isNodeRequest = true ∨
    match req with
    | .addUser _ | .editUser _ _ | .deleteUser _ => True
    | _ => False

/-- **A request that writes is audited**, if its user is there and it gets to its entry. -/
theorem request_audited (hsure : NoDbFailure K) {req : Request} (hreq : Mutating req)
    (caller : Caller) {s : State} (hhealthy : Healthy False (fun _ => False) s.view)
    (h : Auditable ext s caller req) :
    Ensures ext K (req.handle ext caller) (fun _ s' => Audited caller s.db s'.db) s := by
  cases req with
  | addTask body => exact addTask_audited hsure caller body hhealthy.lookup_nextId h
  | editTask taskId body => exact editTask_audited hsure caller taskId body h
  | deleteTask taskId => exact deleteTask_audited hsure caller taskId h
  | startTask taskId => exact startTask_audited hsure caller taskId h
  | stopTask taskId => exact stopTask_audited hsure caller taskId h
  | importTasks body => exact importTasks_audited caller body h
  | addNode body => exact addNode_audited hsure caller body h
  | editNode nodeId body => exact editNode_audited hsure caller nodeId body h
  | deleteNode nodeId => exact deleteNode_audited hsure caller nodeId h
  | regenerateNodeKey nodeId => exact regenerateNodeKey_audited caller nodeId h
  | deployNode body => exact deployNode_audited hsure caller body h
  | deployNewNode body => exact deployNewNode_audited hsure caller body h
  | addUser body => exact addUser_audited hsure caller body h
  | editUser userId body => exact editUser_audited hsure caller userId body h
  | deleteUser userId => exact deleteUser_audited caller userId h
  | _ => simp [Mutating, Request.isTaskRequest, Request.isNodeRequest] at hreq

theorem keepsView_of_accountWork (o : Op) (h : AccountWork o) : o.KeepsView := by
  unfold AccountWork at h
  split at h
  case h_6 => exact keepsView_of_plain o h
  all_goals trivial

/-- Such a request keeps the schedule healthy. -/
theorem mutating_healthy {req : Request} (hreq : Mutating req) (caller : Caller) {s : State}
    (h : Healthy False (fun _ => False) s.view) :
    Ensures ext K (req.handle ext caller)
      (fun _ s' => Healthy False (fun _ => False) s'.view) s := by
  rcases hreq with htask | hnode | huser
  · exact taskRequest_healthy False.elim htask caller h
  · exact nodeRequest_healthy hnode caller h
  · have hkept : ∀ p : Program Reply, p.Uses AccountWork →
        Ensures ext K p (fun _ s' => Healthy False (fun _ => False) s'.view) s := by
      intro p hp
      refine (Ensures.of_uses (hp.mono keepsView_of_accountWork) s).mono fun _ s' hview => ?_
      rw [hview]
      exact h
    cases req with
    | addUser body => exact hkept _ (addUser_uses caller body)
    | editUser userId body => exact hkept _ (editUser_uses caller userId body)
    | deleteUser userId => exact hkept _ (deleteUser_uses caller userId)
    | _ => exact huser.elim

/-- A request that has been served: whose it was, and the states before and after it. -/
structure Served where
  caller : Caller
  req : Request
  before : State
  after : State

/-- Requests served one after the other, the last one first, from a state on. -/
inductive History (ext : Externals) (K : State → Op → Choice → Prop) (s : State) :
    List Served → State → Prop
  | nil : History ext K s [] s
  | served {past : List Served} {s₁ s₂ : State} {caller : Caller} {req : Request} {reply : Reply} :
      History ext K s past s₁ → Mutating req →
      Prog.Runs (execStep ext K) (req.handle ext caller) s₁ reply s₂ →
      History ext K s (⟨caller, req, s₁, s₂⟩ :: past) s₂

theorem History.healthy {s s' : State} {past : List Served} (h : History ext K s past s')
    (hs : Healthy False (fun _ => False) s.view) : Healthy False (fun _ => False) s'.view := by
  induction h with
  | nil => exact hs
  | served _ hreq hrun ih => exact hrun.post (mutating_healthy hreq _ ih)

/-- **The audit trail is complete** over every sequence of requests, from start-up on and without a
    failure of the database, in which each request is auditable when it is served. -/
theorem audit_complete (hsure : NoDbFailure K) {s s' : State} {past : List Served}
    (hstart : StartedUp ext K s) (h : History ext K s past s')
    (haudit : ∀ x ∈ past, Auditable ext x.before x.caller x.req) :
    ∀ x ∈ past, Audited x.caller x.before.db x.after.db := by
  obtain ⟨db, now, hboot⟩ := hstart
  have hs : Healthy False (fun _ => False) s.view := hboot.post (start_healthy False.elim db now)
  induction h with
  | nil => simp
  | served hpast hreq hrun ih =>
    rw [List.forall_mem_cons] at haudit ⊢
    obtain ⟨hnow, hbefore⟩ := haudit
    exact ⟨hrun.post (request_audited hsure hreq _ (hpast.healthy hs) hnow), ih hbefore⟩

end History

/-! ## Two histories -/

/-- A database with an edge node and a user. -/
def attendedDatabase : Database :=
  { emptyDatabase with
    node := Table.empty.create { toStamps := Base.zero, name := "edge", secretKey := "k" } 0
    user := Table.empty.create { toStamps := Base.zero } 0 }

theorem attended_startedUp :
    StartedUp plainExternals SureStep (State.boot attendedDatabase 0) :=
  ⟨attendedDatabase, 0, .op ⟨{}, rfl, rfl⟩ (.pure _ _)⟩

/-- The user deletes the node. -/
theorem audit_complete_deletedNode : ∃ past s',
    History plainExternals SureStep (State.boot attendedDatabase 0) past s' ∧ past.length = 1 ∧
    ∀ x ∈ past, Audited x.caller x.before.db x.after.db := by
  have hrun : ∃ reply s', Prog.Runs (execStep plainExternals SureStep)
      (Controller.deleteNode ⟨1, ""⟩ 1) (State.boot attendedDatabase 0) reply s' :=
    ⟨_, _, runs_of_choices (List.replicate 5 {}) (by simp [SureStep]) rfl⟩
  obtain ⟨reply, s', hrun⟩ := hrun
  have hpast : History plainExternals SureStep (State.boot attendedDatabase 0)
      [⟨⟨1, ""⟩, .deleteNode 1, State.boot attendedDatabase 0, s'⟩] s' :=
    .served .nil (.inr (.inl rfl)) hrun
  refine ⟨_, s', hpast, rfl, audit_complete noDbFailure_sureStep attended_startedUp hpast ?_⟩
  rw [List.forall_mem_singleton]
  exact fun _ => ⟨⟨_, rfl⟩, trivial⟩

/-- The user replaces the key of the node, which leaves no entry. -/
theorem regenerated_key_unaudited : ¬ ∀ (s s' : State) (past : List Served),
    StartedUp plainExternals SureStep s → History plainExternals SureStep s past s' →
    (∀ x ∈ past, UserThere x.before.db x.caller) →
    ∀ x ∈ past, Audited x.caller x.before.db x.after.db := by
  intro hcomplete
  have hrun : ∃ reply s', Prog.Runs (execStep plainExternals SureStep)
      (Controller.regenerateNodeKey 1) (State.boot attendedDatabase 0) reply s' ∧
      s'.db.operationLog.rows = [] ∧
      s'.db.node.row? 1 ≠ (State.boot attendedDatabase 0).db.node.row? 1 :=
    ⟨_, _, .op ⟨{}, rfl, rfl⟩ (.op ⟨{ text := "0123456789abcdef0123456789abcdef" }, rfl, rfl⟩
      (.op ⟨{}, rfl, rfl⟩ (.pure _ _))), rfl, by decide⟩
  obtain ⟨reply, s', hrun, hlog, hchanged⟩ := hrun
  have hpast : History plainExternals SureStep (State.boot attendedDatabase 0)
      [⟨⟨1, ""⟩, .regenerateNodeKey 1, State.boot attendedDatabase 0, s'⟩] s' :=
    .served .nil (.inr (.inl rfl)) hrun
  have hthere : UserThere (State.boot attendedDatabase 0).db ⟨1, ""⟩ := ⟨_, rfl⟩
  have haudited := hcomplete _ s' _ attended_startedUp hpast
    (List.forall_mem_singleton.mpr hthere) _ List.mem_cons_self
  obtain ⟨row, hrow, -⟩ := haudited 1 (.inr (.inl hchanged))
  rw [hlog] at hrow
  cases hrow

end Gonitor.Integrity
