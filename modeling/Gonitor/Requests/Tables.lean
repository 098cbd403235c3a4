import Gonitor.Requests.Health
import Gonitor.Requests.Responsibilities

/-!
# The Task Table and the Node Table Through One Operation

What any operation of any thread can do to the two tables, and what the lookups tell about them.
-/

namespace Gonitor.Requests

open Gonitor.Model Gonitor.Server AtomicProgram SoftDelete

variable {ext : Externals} {c : Choice} {s s' : State}

/-! ## The node table -/

/-- What an operation does to the nodes. -/
inductive NodeStep (c : Choice) (nodes : Table Node) : Op → Table Node → Prop
  | same {o : Op} : NodeStep c nodes o nodes
  | created {row : Node} {now : Time} : c.fail = false →
      NodeStep c nodes (.db (.createNode row)) (nodes.create row now)
  | saved {row : Node} {now : Time} {nodes' : Table Node} : c.fail = false →
      nodes.save row now = some nodes' → NodeStep c nodes (.db (.saveNode row)) nodes'
  | deleted {id : Int} {now : Time} : c.fail = false →
      NodeStep c nodes (.db (.deleteNode id)) (nodes.delete id now)

/-- What holds of a database, and of the one that a statement makes of it if it does not fail, holds
    after the statement. -/
theorem statement_elim {α : Type} {d : Database} {r : Option (α × Database)} {I : Database → Prop}
    (hd : I d) (hr : c.fail = false → ∀ a d', r = some (a, d') → I d') : I (statement c d r).2 := by
  unfold statement
  split
  · exact hd
  · rename_i hfail
    cases r with
    | none => exact hd
    | some x => exact hr (by simpa using hfail) x.1 x.2 rfl

theorem DbOp.nodeStep (o : DbOp) (now : Time) (d : Database) :
    NodeStep c d.node (.db o) (o.exec c now d).2.node := by
  cases o with
  | createNode row =>
    apply statement_elim (I := fun d' => NodeStep c d.node (.db (.createNode row)) d'.node) .same
    intro hok a d' h
    split at h <;> cases h
    exact .created hok
  | saveNode row =>
    apply statement_elim (I := fun d' => NodeStep c d.node (.db (.saveNode row)) d'.node) .same
    intro hok a d' h
    split at h
    · obtain ⟨nodes, hsave, heq⟩ := Option.map_eq_some_iff.mp h
      cases heq
      exact .saved hok hsave
    · cases h
  | deleteNode id =>
    apply statement_elim (I := fun d' => NodeStep c d.node (.db (.deleteNode id)) d'.node) .same
    intro hok a d' h
    cases h
    exact .deleted hok
  | commitTx =>
    have hnode : (DbOp.exec c now d .commitTx).2.node = d.node := by
      simp only [DbOp.exec]
      split <;> rfl
    rw [hnode]
    exact .same
  | createTask row =>
    apply statement_elim (I := fun d' => NodeStep c d.node (.db (.createTask row)) d'.node) .same
    intro _ a d' h
    cases h
    exact .same
  | saveTask row =>
    apply statement_elim (I := fun d' => NodeStep c d.node (.db (.saveTask row)) d'.node) .same
    intro _ a d' h
    obtain ⟨tasks, -, heq⟩ := Option.map_eq_some_iff.mp h
    cases heq
    exact .same
  | deleteTask id =>
    apply statement_elim (I := fun d' => NodeStep c d.node (.db (.deleteTask id)) d'.node) .same
    intro _ a d' h
    cases h
    exact .same
  | beginTx =>
    apply statement_elim (I := fun d' => NodeStep c d.node (.db .beginTx) d'.node) .same
    intro _ a d' h
    cases h
    exact .same
  | rollbackTx => exact .same
  | _ =>
    have hnode : ∀ o : DbOp, (Op.db o).KeepsView →
        NodeStep c d.node (.db o) (o.exec c now d).2.node := by
      intro o ho
      rw [(DbOp.exec_tables ho c now d).2.2]
      exact .same
    exact hnode _ trivial

/-- What any operation does to the nodes. -/
theorem nodeStep_of_exec {o : Op} {r : o.Res} (h : exec ext o c s = some (r, s')) :
    NodeStep c s.db.node o s'.db.node := by
  cases o with
  | db o =>
    obtain ⟨-, -, rfl⟩ := exec_db h
    exact DbOp.nodeStep o _ s.db
  | sched o =>
    obtain ⟨-, -, rfl⟩ := exec_sched h
    exact .same
  | run o =>
    obtain ⟨-, d, os, -, rfl⟩ := exec_run h
    exact .same
  | world o =>
    obtain ⟨-, -, rfl⟩ := exec_world h
    exact .same

/-- An operation that writes no node. -/
theorem nodes_of_exec {o : Op} {r : o.Res} (ho : KeepsNodes o)
    (h : exec ext o c s = some (r, s')) : s'.db.node = s.db.node := by
  have hstep := nodeStep_of_exec h
  generalize s'.db.node = nodes' at hstep ⊢
  cases hstep with
  | same => rfl
  | created | saved | deleted => exact ho.elim

/-! ## The task table -/

/-- What an operation does to the tasks and to an open transaction at the instant `now`. -/
inductive TableStep (c : Choice) (now : Time) (tasks : Table Task)
    (savepoint : Option (Table Task)) : Op → Table Task → Option (Table Task) → Prop
  | same {o : Op} : TableStep c now tasks savepoint o tasks savepoint
  | created {row : Task} : c.fail = false → TableStep c now tasks savepoint (.db (.createTask row))
      (tasks.create row.withDefaults now) savepoint
  | saved {row : Task} {tasks' : Table Task} : c.fail = false → tasks.save row now = some tasks' →
      TableStep c now tasks savepoint (.db (.saveTask row)) tasks' savepoint
  | deleted {id : Int} : c.fail = false →
      TableStep c now tasks savepoint (.db (.deleteTask id)) (tasks.delete id now) savepoint
  | begun : TableStep c now tasks savepoint (.db .beginTx) tasks (some tasks)
  | committed : TableStep c now tasks savepoint (.db .commitTx) tasks none
  | uncommitted : TableStep c now tasks savepoint (.db .commitTx) (savepoint.getD tasks) none
  | rolledBack : TableStep c now tasks savepoint (.db .rollbackTx) (savepoint.getD tasks) none

theorem DbOp.tableStep (o : DbOp) (now : Time) (d : Database) :
    TableStep c now d.task d.savepoint (.db o) (o.exec c now d).2.task
      (o.exec c now d).2.savepoint := by
  cases o with
  | createTask row =>
    apply statement_elim (I := fun d' => TableStep c now d.task d.savepoint
      (.db (.createTask row)) d'.task d'.savepoint) .same
    intro hok a d' h
    cases h
    exact .created hok
  | saveTask row =>
    apply statement_elim (I := fun d' => TableStep c now d.task d.savepoint
      (.db (.saveTask row)) d'.task d'.savepoint) .same
    intro hok a d' h
    obtain ⟨tasks, hsave, heq⟩ := Option.map_eq_some_iff.mp h
    cases heq
    exact .saved hok hsave
  | deleteTask id =>
    apply statement_elim (I := fun d' => TableStep c now d.task d.savepoint
      (.db (.deleteTask id)) d'.task d'.savepoint) .same
    intro hok a d' h
    cases h
    exact .deleted hok
  | beginTx =>
    apply statement_elim (I := fun d' => TableStep c now d.task d.savepoint
      (.db .beginTx) d'.task d'.savepoint) .same
    intro _ a d' h
    cases h
    exact .begun
  | commitTx =>
    simp only [DbOp.exec]
    split
    · exact .uncommitted
    · exact .committed
  | rollbackTx => exact .rolledBack
  | createNode row | saveNode row | deleteNode id =>
    have htask : ∀ o : DbOp, NodeWork (.db o) → TableStep c now d.task d.savepoint (.db o)
        (o.exec c now d).2.task (o.exec c now d).2.savepoint := by
      intro o ho
      rw [(DbOp.exec_tasks ho c now d).1, (DbOp.exec_tasks ho c now d).2]
      exact .same
    exact htask _ trivial
  | _ =>
    have htask : ∀ o : DbOp, (Op.db o).KeepsView → TableStep c now d.task d.savepoint (.db o)
        (o.exec c now d).2.task (o.exec c now d).2.savepoint := by
      intro o ho
      rw [(DbOp.exec_tables ho c now d).1, (DbOp.exec_tables ho c now d).2.1]
      exact .same
    exact htask _ trivial

/-- What any operation does to the tasks and to an open transaction, and to the clock. -/
theorem tableStep_of_exec {o : Op} {r : o.Res} (h : exec ext o c s = some (r, s')) :
    TableStep c s'.clock s.db.task s.db.savepoint o s'.db.task s'.db.savepoint ∧
      s'.clock = s.clock + c.elapsed := by
  cases o with
  | db o =>
    obtain ⟨-, -, rfl⟩ := exec_db h
    exact ⟨DbOp.tableStep o _ s.db, rfl⟩
  | sched o =>
    obtain ⟨-, -, rfl⟩ := exec_sched h
    exact ⟨.same, rfl⟩
  | run o =>
    obtain ⟨-, d, os, -, rfl⟩ := exec_run h
    exact ⟨.same, rfl⟩
  | world o =>
    obtain ⟨-, -, rfl⟩ := exec_world h
    exact ⟨.same, rfl⟩

/-- What an operation of the pool does to the tasks. -/
inductive TaskStep (c : Choice) (tasks : Table Task) : Op → Table Task → Prop
  | same {o : Op} : TaskStep c tasks o tasks
  | created {row : Task} {now : Time} : c.fail = false →
      TaskStep c tasks (.db (.createTask row)) (tasks.create row.withDefaults now)
  | saved {row : Task} {now : Time} {tasks' : Table Task} : c.fail = false →
      tasks.save row now = some tasks' → TaskStep c tasks (.db (.saveTask row)) tasks'
  | deleted {id : Int} {now : Time} : c.fail = false →
      TaskStep c tasks (.db (.deleteTask id)) (tasks.delete id now)

/-- The operation opens or ends no transaction. -/
def KeepsSavepoint : Op → Prop
  | .db .beginTx | .db .commitTx | .db .rollbackTx => False
  | _ => True

theorem keepsSavepoint_of_keepsTasks (o : Op) (h : KeepsTasks o) : KeepsSavepoint o := by
  unfold KeepsSavepoint
  split
  case h_4 => trivial
  all_goals exact h

theorem keepsSavepoint_of_taskWork (o : Op) (h : TaskWork o) : KeepsSavepoint o := by
  unfold TaskWork at h
  split at h
  case h_4 => exact keepsSavepoint_of_keepsTasks o (keepsTasks_of_both o h)
  all_goals trivial

/-- What any operation of the pool does to the tasks; it leaves an open transaction alone. -/
theorem taskStep_of_exec {o : Op} {r : o.Res} (ho : KeepsSavepoint o)
    (h : exec ext o c s = some (r, s')) :
    TaskStep c s.db.task o s'.db.task ∧ s'.db.savepoint = s.db.savepoint := by
  have hstep := (tableStep_of_exec h).1
  generalize s'.db.task = tasks', s'.db.savepoint = savepoint' at hstep ⊢
  cases hstep with
  | same => exact ⟨.same, rfl⟩
  | created hok => exact ⟨.created hok, rfl⟩
  | saved hok hsave => exact ⟨.saved hok hsave, rfl⟩
  | deleted hok => exact ⟨.deleted hok, rfl⟩
  | begun | committed | uncommitted | rolledBack => exact ho.elim

/-- What writes no task leaves the tasks as they are. -/
theorem tasks_of_exec {o : Op} {r : o.Res} (ho : KeepsTasks o)
    (h : exec ext o c s = some (r, s')) : s'.db.task = s.db.task := by
  have hstep := (taskStep_of_exec (keepsSavepoint_of_keepsTasks o ho) h).1
  generalize s'.db.task = tasks' at hstep ⊢
  cases hstep with
  | same => rfl
  | created hok => exact ho.elim
  | saved hok hsave => exact ho.elim
  | deleted hok => exact ho.elim

/-! ## Users and tokens -/

/-- What an operation does to the users and their tokens at the instant `now`. -/
inductive AccountStep (c : Choice) (now : Time) (users : Table User) (tokens : Table UserToken) :
    Op → Table User → Table UserToken → Prop
  | same {o : Op} : AccountStep c now users tokens o users tokens
  | created {row : User} : c.fail = false →
      AccountStep c now users tokens (.db (.createUser row)) (users.create row now) tokens
  | saved {row : User} {users' : Table User} : c.fail = false → users.save row now = some users' →
      AccountStep c now users tokens (.db (.saveUser row)) users' tokens
  | deleted {id : Int} : c.fail = false →
      AccountStep c now users tokens (.db (.deleteUser id)) (users.delete id now) tokens
  | tokensDeleted {id : Int} : c.fail = false →
      AccountStep c now users tokens (.db (.deleteUserTokens id)) users
        (tokens.deleteWhere (fun u => u.userID == id) now)
  | tokenCreated {row : UserToken} : c.fail = false →
      AccountStep c now users tokens (.db (.createUserToken row)) users (tokens.create row now)

theorem DbOp.accountStep (o : DbOp) (now : Time) (d : Database) :
    AccountStep c now d.user d.userToken (.db o) (o.exec c now d).2.user
      (o.exec c now d).2.userToken := by
  have hsame : ∀ o : DbOp, (o.exec c now d).2.user = d.user ∧
      (o.exec c now d).2.userToken = d.userToken → AccountStep c now d.user d.userToken (.db o)
        (o.exec c now d).2.user (o.exec c now d).2.userToken := by
    rintro o ⟨huser, htoken⟩
    rw [huser, htoken]
    exact .same
  cases o with
  | createUser row =>
    apply statement_elim (I := fun d' => AccountStep c now d.user d.userToken
      (.db (.createUser row)) d'.user d'.userToken) .same
    intro hok a d' h
    cases h
    exact .created hok
  | saveUser row =>
    apply statement_elim (I := fun d' => AccountStep c now d.user d.userToken
      (.db (.saveUser row)) d'.user d'.userToken) .same
    intro hok a d' h
    obtain ⟨users, hsave, heq⟩ := Option.map_eq_some_iff.mp h
    cases heq
    exact .saved hok hsave
  | deleteUser id =>
    apply statement_elim (I := fun d' => AccountStep c now d.user d.userToken
      (.db (.deleteUser id)) d'.user d'.userToken) .same
    intro hok a d' h
    cases h
    exact .deleted hok
  | deleteUserTokens id =>
    apply statement_elim (I := fun d' => AccountStep c now d.user d.userToken
      (.db (.deleteUserTokens id)) d'.user d'.userToken) .same
    intro hok a d' h
    cases h
    exact .tokensDeleted hok
  | createUserToken row =>
    apply statement_elim (I := fun d' => AccountStep c now d.user d.userToken
      (.db (.createUserToken row)) d'.user d'.userToken) .same
    intro hok a d' h
    cases h
    exact .tokenCreated hok
  | createTask _ | deleteTask _ | beginTx | deleteNode _ | createTaskLog _ | createReportLog _
  | createNodeEvent _ | createOperationLog _ =>
    apply hsame
    simp only [DbOp.exec, statement]
    split <;> exact ⟨rfl, rfl⟩
  | saveTask row =>
    apply hsame
    simp only [DbOp.exec, statement]
    split
    · exact ⟨rfl, rfl⟩
    · cases d.task.save row now <;> exact ⟨rfl, rfl⟩
  | saveTaskLog row =>
    apply hsame
    simp only [DbOp.exec, statement]
    split
    · exact ⟨rfl, rfl⟩
    · cases d.taskLog.save row now <;> exact ⟨rfl, rfl⟩
  | createNode row =>
    apply hsame
    simp only [DbOp.exec, statement]
    split
    · exact ⟨rfl, rfl⟩
    · cases nodeNameFree d.node { row with id := 0 } <;> exact ⟨rfl, rfl⟩
  | saveNode row =>
    apply hsame
    simp only [DbOp.exec, statement]
    split
    · exact ⟨rfl, rfl⟩
    · cases nodeNameFree d.node row with
      | false => exact ⟨rfl, rfl⟩
      | true => cases d.node.save row now <;> exact ⟨rfl, rfl⟩
  | commitTx =>
    apply hsame
    simp only [DbOp.exec]
    split <;> exact ⟨rfl, rfl⟩
  | _ => exact .same

/-- What any operation does to the users and their tokens, and to the clock. -/
theorem accountStep_of_exec {o : Op} {r : o.Res} (h : exec ext o c s = some (r, s')) :
    AccountStep c s'.clock s.db.user s.db.userToken o s'.db.user s'.db.userToken ∧
      s'.clock = s.clock + c.elapsed := by
  cases o with
  | db o =>
    obtain ⟨-, -, rfl⟩ := exec_db h
    exact ⟨DbOp.accountStep o _ s.db, rfl⟩
  | sched o =>
    obtain ⟨-, -, rfl⟩ := exec_sched h
    exact ⟨.same, rfl⟩
  | run o =>
    obtain ⟨-, d, os, -, rfl⟩ := exec_run h
    exact ⟨.same, rfl⟩
  | world o =>
    obtain ⟨-, -, rfl⟩ := exec_world h
    exact ⟨.same, rfl⟩

/-! ## Answers -/

/-- A node that has been found by its key is there. -/
theorem byId_of_findNode {site : NodeLookup} {id : Int} {row : Node}
    (h : exec ext (.db (.findNode site id)) c s = some (.ok row, s')) :
    s.db.node.byId id = some row := by
  obtain ⟨-, hr, -⟩ := exec_db h
  exact query_ok hr.symm

/-- A node that has been found by its secret is there, and has this secret. -/
theorem first_of_findNodeWithKey {secretKey : String} {row : Node}
    (h : exec ext (.db (.findNodeWithKey secretKey)) c s = some (.ok row, s')) :
    s.db.node.first (fun n => n.secretKey == secretKey) = some row := by
  obtain ⟨-, hr, -⟩ := exec_db h
  exact query_ok hr.symm

/-- A task that has been found by its key is there. -/
theorem byId_of_findTask {id : Int} {row : Task}
    (h : exec ext (.db (.findTask id)) c s = some (.ok row, s')) :
    s.db.task.byId id = some row := by
  obtain ⟨-, hr, -⟩ := exec_db h
  exact query_ok hr.symm

/-- What has been drawn is what was chosen. -/
theorem eq_of_randomString {len : Nat} {text : String}
    (h : exec ext (.world (.randomString len)) c s = some (text, s')) : text = c.text := by
  obtain ⟨-, hr, -⟩ := exec_world h
  simp only [WorldOp.exec] at hr
  split at hr <;> cases hr
  rfl

/-- A row that has been saved without an error is stored. -/
theorem save_of_saveNode {row : Node} {u : Unit}
    (h : exec ext (.db (.saveNode row)) c s = some (.ok u, s')) :
    ∃ now, s.db.node.save row now = some s'.db.node := by
  obtain ⟨-, hr, rfl⟩ := exec_db h
  simp only [DbOp.exec, statement] at hr ⊢
  split at hr
  · cases hr
  · rename_i hok
    rw [if_neg hok]
    split at hr
    · rename_i a d' hsaved
      split at hsaved
      · obtain ⟨nodes, hsave, heq⟩ := Option.map_eq_some_iff.mp hsaved
        cases heq
        exact ⟨_, hsave⟩
      · cases hsaved
    · cases hr

end Gonitor.Requests
