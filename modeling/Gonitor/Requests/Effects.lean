import Gonitor.Requests.Footprints

/-!
# What the Requests Do to the Schedule

The schedule as the requests see it: the task rows, the cron entries and `TaskList`.  Two
operations change it on the scheduler's side, `unschedule` and `schedule`; every function
of `package task` is specified by them.  The rest of the state (logs, processes, the clock)
is out of sight here.

## Main Results

- `deleteTask_spec`: `Manager.DeleteTask` unschedules the task.
- `addTask_spec`: `Manager.AddTask` leaves the schedule as it is, or schedules a live,
  enabled task under the row it has just read.
-/

namespace Gonitor.Server

open Gonitor.Model SoftDelete

/-! ## The schedule -/

/-- The part of the state that the schedule consists of. -/
structure View where
  tasks : Table Task
  savepoint : Option (Table Task)
  nodes : Table Node
  cron : Cron
  taskList : AList (fun _ : Int => TaskInstance)

/-- The schedule of a state. -/
def State.view (s : State) : View :=
  ⟨s.db.task, s.db.savepoint, s.db.node, s.sched.cron, s.sched.taskList⟩

/-- Take a task off the schedule. -/
def View.unschedule (v : View) (taskId : Int) : View :=
  match v.taskList.lookup taskId with
  | none => v
  | some ti =>
    { v with
      cron := v.cron.remove ti.entryId
      taskList := (v.taskList.erase ti.taskInfo.id).erase taskId }

/-- Put a task on the schedule, under the given row. -/
def View.schedule (v : View) (taskId : Int) (row : Task) : View :=
  { v with
    cron := v.cron.addJob (Gonitor.Task.wrappedJob row)
    taskList := v.taskList.insert row.id ⟨taskId, row, v.cron.nextID⟩ }

/-- A task whose node is `nodeID` runs on the master: it has no node, or its node is not
    a live non-master node. -/
def View.IsLocal (v : View) (nodeID : Int) : Prop :=
  nodeID = 0 ∨ ∀ node, v.nodes.byId nodeID = some node → node.isMaster = true

/-! ## Operations that leave the schedule alone -/

/-- The operations that change neither task rows nor nodes nor the schedule. -/
def Op.KeepsView : Op → Prop
  | .db (.createTask _) | .db (.saveTask _) | .db (.deleteTask _) => False
  | .db .beginTx | .db .commitTx | .db .rollbackTx => False
  | .db (.createNode _) | .db (.saveNode _) | .db (.deleteNode _) => False
  | .sched (.taskListPut _ _) | .sched (.taskListDelete _) => False
  | .sched (.cronAddJob _ _) | .sched (.cronRemove _) => False
  | _ => True

@[simp] theorem cron_register (d : Scheduler) (taskId log : Int) :
    (d.register taskId log).cron = d.cron := by
  unfold Scheduler.register
  split <;> rfl

@[simp] theorem taskList_register (d : Scheduler) (taskId log : Int) :
    (d.register taskId log).taskList = d.taskList := by
  unfold Scheduler.register
  split <;> rfl

/-- A run changes neither the cron entries nor `TaskList`. -/
theorem RunOp.exec_schedule {c : Choice} {d d' : Scheduler} {os os' : Processes} {o : RunOp}
    {r : o.Res} (h : o.exec c d os = some (r, d', os')) :
    d'.cron = d.cron ∧ d'.taskList = d.taskList := by
  cases o <;> simp only [RunOp.exec] at h
  all_goals repeat' split at h
  all_goals simp only [Option.some.injEq, Prod.mk.injEq, reduceCtorEq] at h
  -- what is left are the operations that went through
  all_goals
    obtain ⟨-, rfl, -⟩ := h
    simp [Scheduler.forget]

/-- The tables of the view after a database operation that keeps it. -/
theorem DbOp.exec_tables {o : DbOp} (ho : (Op.db o).KeepsView) (c : Choice) (now : Time)
    (d : Database) : (o.exec c now d).2.task = d.task ∧
      (o.exec c now d).2.savepoint = d.savepoint ∧ (o.exec c now d).2.node = d.node := by
  cases o with
  | createTaskLog _ | createReportLog _ | createNodeEvent _ | createUser _ | deleteUser _
  | deleteUserTokens _ | createUserToken _ | createOperationLog _ =>
    simp only [DbOp.exec, statement]
    split <;> exact ⟨rfl, rfl, rfl⟩
  | saveTaskLog row =>
    simp only [DbOp.exec, statement]
    split
    · exact ⟨rfl, rfl, rfl⟩
    · cases d.taskLog.save row now <;> exact ⟨rfl, rfl, rfl⟩
  | saveUser row =>
    simp only [DbOp.exec, statement]
    split
    · exact ⟨rfl, rfl, rfl⟩
    · cases d.user.save row now <;> exact ⟨rfl, rfl, rfl⟩
  | findTask _ | enabledTasks | findNode _ _ | findNodeNamed _ _ | countNodeTasks _
  | lastEndedLog _ | findMaster | findNodeWithKey _ | nodeTasks _ _ | findNodeTask _ _
  | userInfo _ | findUserByAccount _ => exact ⟨rfl, rfl, rfl⟩
  | _ => exact ho.elim

/-- Operations that keep the view keep it. -/
theorem view_of_keepsView {ext : Externals} {o : Op} {c : Choice} {s s' : State} {r : o.Res}
    (ho : o.KeepsView) (h : exec ext o c s = some (r, s')) : s'.view = s.view := by
  cases o with
  | db o =>
    obtain ⟨-, -, rfl⟩ := exec_db h
    obtain ⟨htask, hsave, hnode⟩ := DbOp.exec_tables ho c (s.clock + c.elapsed) s.db
    simp only [State.view, htask, hsave, hnode]
  | sched o =>
    obtain ⟨-, -, rfl⟩ := exec_sched h
    cases o with
    | taskListGet _ | taskListKeys | runningInstances _ => rfl
    | stopRunning e log =>
      simp only [State.view, SchedOp.exec]
      split <;> rfl
    | _ => exact ho.elim
  | run o =>
    obtain ⟨-, d, os, hrun, rfl⟩ := exec_run h
    obtain ⟨hcron, hlist⟩ := RunOp.exec_schedule hrun
    simp only [State.view, hcron, hlist]
  | world o =>
    obtain ⟨-, -, rfl⟩ := exec_world h
    rfl

end Gonitor.Server

namespace Gonitor.Requests

open Gonitor.Model Gonitor.Server Gonitor.Task AtomicProgram SoftDelete

/-! ## Careful steps -/

/-- What a careful step avoids: that the node lookup of `isLocalTask` fails for a task of a
    live non-master node, and that the row of a scheduled task is deleted. -/
def CarefulStep (s : State) (o : Op) (c : Choice) : Prop :=
  match o with
  | .db (.findNode .managerIsLocalTask nodeID) => c.fail = true → s.view.IsLocal nodeID
  | .db (.deleteTask taskId) => c.fail = true ∨ s.view.taskList.lookup taskId = none
  | _ => True

/-- All steps counted are careful. -/
def Careful (K : State → Op → Choice → Prop) : Prop := ∀ s o c, K s o c → CarefulStep s o c

/-- In no step counted does the database fail. -/
def NoDbFailure (K : State → Op → Choice → Prop) : Prop :=
  ∀ s o c, K s (.db o) c → c.fail = false

/-- A step counted performs the operation in the state `s`, and it does not fail. -/
def Performs (K : State → Op → Choice → Prop) (s : State) (o : Op) : Prop :=
  ∃ c, K s o c ∧ c.fail = false

section Specs

variable {ext : Externals} {K : State → Op → Choice → Prop} {α : Type}

/-! ## Single operations -/

/-- A program all of whose operations keep the view keeps it. -/
theorem Ensures.of_uses {p : Program α} (hp : p.Uses Op.KeepsView) (s : State) :
    Ensures ext K p (fun _ s' => s'.view = s.view) s := by
  refine hp.wp (fun o s₁ ho hs => ⟨trivial, ?_⟩) rfl
  rintro r s' ⟨c, -, hexec⟩
  exact (view_of_keepsView ho hexec).trans hs

theorem keepsView_of_plain (o : Op) (h : Plain o) : o.KeepsView := by
  unfold Plain at h
  split at h
  case h_15 => exact h.elim
  all_goals trivial

/-- So does a program whose operations are plain. -/
theorem Ensures.of_plain {p : Program α} (hp : p.Uses Plain) (s : State) :
    Ensures ext K p (fun _ s' => s'.view = s.view) s :=
  Ensures.of_uses (hp.mono keepsView_of_plain) s

theorem query_ok {c : Choice} {r : Option α} {a : α} (h : query c r = .ok a) : r = some a := by
  unfold query at h
  split at h
  · cases h
  · cases r with
    | none => cases h
    | some b =>
      cases h
      rfl

/-- A query fails because the database does or because there is no such row. -/
theorem query_error {c : Choice} {r : Option α} {err : DbError} (h : query c r = .error err) :
    c.fail = true ∨ r = none := by
  unfold query at h
  split at h
  · rename_i hfail
    exact .inl hfail
  · cases r with
    | none => exact .inr rfl
    | some b => cases h

theorem findTask_spec (taskId : Int) (s : State) :
    Ensures ext K (findTask taskId) (fun r s' => s'.view = s.view ∧
      (∀ row, r = .ok row → s.view.tasks.byId taskId = some row) ∧
      ∀ err, r = .error err → NoDbFailure K → s.view.tasks.byId taskId = none) s := by
  refine Ensures.op fun c r s' hK h => Ensures.pure ⟨?_, ?_, ?_⟩
  · exact view_of_keepsView (show (Op.db (.findTask taskId)).KeepsView from trivial) h
  · obtain ⟨-, rfl, -⟩ := exec_db h
    intro row hrow
    exact query_ok hrow
  · obtain ⟨-, rfl, -⟩ := exec_db h
    intro err herr hsure
    rcases query_error herr with hfail | hnone
    · simp [hsure _ _ _ hK] at hfail
    · exact hnone

theorem taskListGet_spec (taskId : Int) (s : State) :
    Ensures ext K (taskListGet taskId) (fun r s' => s'.view = s.view ∧
      r = s.view.taskList.lookup taskId) s := by
  refine Ensures.op fun c r s' _ h => Ensures.pure ⟨?_, ?_⟩
  · exact view_of_keepsView (show (Op.sched (.taskListGet taskId)).KeepsView from trivial) h
  obtain ⟨-, rfl, -⟩ := exec_sched h
  rfl

/-- What a statement on the task table does: nothing when it fails. -/
theorem statement_spec {c : Choice} {d d' : Database} {r : Option (α × Database)}
    {res : Except DbError α} (h : statement c d r = (res, d')) :
    (∃ err, res = .error err ∧ d' = d ∧ (c.fail = false → r = none)) ∨
      (c.fail = false ∧ ∃ a, r = some (a, d') ∧ res = .ok a) := by
  unfold statement at h
  split at h
  · rename_i hfail
    cases h
    exact .inl ⟨_, rfl, rfl, fun hok => by simp [hok] at hfail⟩
  · rename_i hfail
    cases r with
    | none =>
      cases h
      exact .inl ⟨_, rfl, rfl, fun _ => rfl⟩
    | some x =>
      cases h
      exact .inr ⟨by simpa using hfail, _, rfl, rfl⟩

theorem createTask_spec (row : Task) (s : State) :
    Ensures ext K (createTask row) (fun r s' =>
      (∃ err, r = .error err ∧ s'.view = s.view ∧ ¬ NoDbFailure K) ∨
      ∃ now, r = .ok (s.view.tasks.inserted row.withDefaults now) ∧
        s'.view = { s.view with tasks := s.view.tasks.create row.withDefaults now } ∧
        Performs K s (.db (.createTask row))) s := by
  refine Ensures.op fun c r s' hK h => Ensures.pure ?_
  obtain ⟨-, rfl, rfl⟩ := exec_db h
  rcases statement_spec (Prod.mk.eta.symm : statement c s.db _ = _) with
    ⟨err, hr, hd, hwhy⟩ | ⟨hok, a, ha, hr⟩
  · refine .inl ⟨err, hr, by simp only [State.view, DbOp.exec, hd], fun hsure => ?_⟩
    exact absurd (hwhy (hsure _ _ _ hK)) (by simp)
  · simp only [Option.some.injEq, Prod.mk.injEq] at ha
    refine .inr ⟨_, hr.trans (congrArg _ ha.1.symm), ?_, c, hK, hok⟩
    simp only [State.view, DbOp.exec, ← ha.2]

theorem saveTask_spec (row : Task) (s : State) :
    Ensures ext K (saveTask row) (fun r s' =>
      (∃ err, r = .error err ∧ s'.view = s.view ∧
        (NoDbFailure K → s.view.tasks.byId row.id = none)) ∨
      ∃ now tasks, r = .ok () ∧ s.view.tasks.save row now = some tasks ∧
        s'.view = { s.view with tasks := tasks } ∧ Performs K s (.db (.saveTask row))) s := by
  refine Ensures.op fun c r s' hK h => Ensures.pure ?_
  obtain ⟨-, rfl, rfl⟩ := exec_db h
  rcases statement_spec (Prod.mk.eta.symm : statement c s.db _ = _) with
    ⟨err, hr, hd, hwhy⟩ | ⟨hok, a, ha, hr⟩
  · refine .inl ⟨err, hr, by simp only [State.view, DbOp.exec, hd], fun hsure => ?_⟩
    exact Table.byId_of_save_eq_none (Option.map_eq_none_iff.mp (hwhy (hsure _ _ _ hK)))
  · obtain ⟨tasks, hsave, heq⟩ := Option.map_eq_some_iff.mp ha
    simp only [Prod.mk.injEq] at heq
    refine .inr ⟨_, tasks, hr, hsave, ?_, c, hK, hok⟩
    simp only [State.view, DbOp.exec, ← heq.2]

theorem deleteTaskRow_spec (taskId : Int) (s : State) :
    Ensures ext K (deleteTaskRow taskId) (fun r s' =>
      (∃ err, r = .error err ∧ s'.view = s.view ∧ ¬ NoDbFailure K) ∨
      ∃ now, r = .ok () ∧ (Careful K → s.view.taskList.lookup taskId = none) ∧
        s'.view = { s.view with tasks := s.view.tasks.delete taskId now } ∧
        Performs K s (.db (.deleteTask taskId))) s := by
  refine Ensures.op fun c r s' hK h => Ensures.pure ?_
  obtain ⟨-, rfl, rfl⟩ := exec_db h
  rcases statement_spec (Prod.mk.eta.symm : statement c s.db _ = _) with
    ⟨err, hr, hd, hwhy⟩ | ⟨hfail, a, ha, hr⟩
  · refine .inl ⟨err, hr, by simp only [State.view, DbOp.exec, hd], fun hsure => ?_⟩
    exact absurd (hwhy (hsure _ _ _ hK)) (by simp)
  · obtain ⟨-, hd⟩ := Prod.mk.inj (Option.some.inj ha)
    refine .inr ⟨s.clock + c.elapsed, hr, ?_, by simp only [State.view, DbOp.exec, ← hd],
      c, hK, hfail⟩
    intro hcareful
    rcases hcareful _ _ _ hK with hfail' | hnone
    · simp [hfail] at hfail'
    · exact hnone

theorem beginTx_spec (s : State) :
    Ensures ext K beginTx (fun r s' =>
      (∃ err, r = .error err ∧ s'.view = s.view ∧ ¬ NoDbFailure K) ∨
      (r = .ok () ∧ s'.view = { s.view with savepoint := some s.view.tasks })) s := by
  refine Ensures.op fun c r s' hK h => Ensures.pure ?_
  obtain ⟨-, rfl, rfl⟩ := exec_db h
  rcases statement_spec (Prod.mk.eta.symm : statement c s.db _ = _) with
    ⟨err, hr, hd, hwhy⟩ | ⟨-, a, ha, hr⟩
  · refine .inl ⟨err, hr, by simp only [State.view, DbOp.exec, hd], fun hsure => ?_⟩
    exact absurd (hwhy (hsure _ _ _ hK)) (by simp)
  · obtain ⟨-, hd⟩ := Prod.mk.inj (Option.some.inj ha)
    exact .inr ⟨hr, by simp only [State.view, DbOp.exec, ← hd]⟩

theorem rollbackTx_spec (s : State) :
    Ensures ext K rollbackTx (fun _ s' => s'.view =
      { s.view with tasks := s.view.savepoint.getD s.view.tasks, savepoint := none }) s := by
  refine Ensures.op fun c r s' _ h => Ensures.pure ?_
  obtain ⟨-, -, rfl⟩ := exec_db h
  rfl

/-- A failing commit rolls back. -/
theorem commitTx_spec (s : State) :
    Ensures ext K commitTx (fun r s' =>
      (∃ err, r = .error err ∧ s'.view =
        { s.view with tasks := s.view.savepoint.getD s.view.tasks, savepoint := none } ∧
        ¬ NoDbFailure K) ∨
      (r = .ok () ∧ s'.view = { s.view with savepoint := none })) s := by
  refine Ensures.op fun c r s' hK h => Ensures.pure ?_
  obtain ⟨-, rfl, rfl⟩ := exec_db h
  simp only [DbOp.exec]
  split
  · rename_i hfail
    exact .inl ⟨_, rfl, rfl, fun hsure => by simp [hsure _ _ _ hK] at hfail⟩
  · exact .inr ⟨rfl, rfl⟩

/-! ## Functions of the manager -/

theorem stopEach_uses (e : EntryID) (logs : List Int) : (stopEach e logs).Uses Op.KeepsView := by
  induction logs with
  | nil => trivial
  | cons log logs ih => exact ⟨trivial, fun _ => ih⟩

theorem stopInstance_spec (ti : TaskInstance) (s : State) :
    Ensures ext K (stopInstance ti) (fun _ s' => s'.view = { s.view with
      cron := s.view.cron.remove ti.entryId
      taskList := s.view.taskList.erase ti.taskInfo.id }) s := by
  refine Ensures.op fun c r s₁ _ h₁ => ?_
  obtain ⟨-, -, rfl⟩ := exec_sched h₁
  refine (Ensures.of_uses (p := runningInstances ti.entryId) ⟨trivial, fun _ => trivial⟩ _).bind ?_
  intro logs s₂ h₂
  refine (Ensures.of_uses (stopEach_uses ti.entryId logs) s₂).bind ?_
  intro _ s₃ h₃
  refine Ensures.op fun c r s₄ _ h₄ => Ensures.pure ?_
  obtain ⟨-, -, rfl⟩ := exec_sched h₄
  have hview := h₃.trans h₂
  simp only [State.view, View.mk.injEq] at hview
  simp only [State.view, SchedOp.exec, hview]

/-- `Manager.DeleteTask` takes the task off the schedule. -/
theorem deleteTask_spec (taskId : Int) (s : State) :
    Ensures ext K (deleteTask taskId) (fun _ s' => s'.view = s.view.unschedule taskId) s := by
  refine (taskListGet_spec taskId s).bind ?_
  rintro r s₁ ⟨h₁, rfl⟩
  cases hti : s.view.taskList.lookup taskId with
  | none =>
    refine Ensures.pure ?_
    rw [h₁, View.unschedule, hti]
  | some ti =>
    refine (stopInstance_spec ti s₁).bind ?_
    intro _ s₂ h₂
    refine Ensures.op fun c r s₃ _ h₃ => Ensures.pure ?_
    obtain ⟨-, -, rfl⟩ := exec_sched h₃
    rw [h₁] at h₂
    have hfields := h₂
    simp only [State.view, View.mk.injEq] at hfields
    rw [View.unschedule, hti]
    simp only [State.view, SchedOp.exec, hfields]

/-- `isLocalTask` only reads, and where steps are careful it does not take a task of a live
    non-master node for a local one. -/
theorem isLocalTask_spec (t : Task) (s : State) :
    Ensures ext K (isLocalTask t) (fun isLocal s' => s'.view = s.view ∧
      (Careful K → isLocal = true → s.view.IsLocal t.nodeID)) s := by
  unfold isLocalTask
  split
  · rename_i hzero
    exact Ensures.pure ⟨rfl, fun _ _ => .inl hzero⟩
  · refine Ensures.op fun c r s' hK h => ?_
    have hview : s'.view = s.view := view_of_keepsView
      (show (Op.db (.findNode .managerIsLocalTask t.nodeID)).KeepsView from trivial) h
    obtain ⟨-, rfl, -⟩ := exec_db h
    cases hr : query c (s.db.node.byId t.nodeID) with
    | error err =>
      simp only [DbOp.exec, hr]
      refine Ensures.pure ⟨hview, fun hcareful _ => ?_⟩
      rcases query_error hr with hfail | hnone
      · exact hcareful _ _ _ hK hfail
      · refine .inr fun node hnode => ?_
        rw [show s.view.nodes.byId t.nodeID = none from hnone] at hnode
        cases hnode
    | ok node =>
      simp only [DbOp.exec, hr]
      refine Ensures.pure ⟨hview, fun _ hmaster => .inr fun node' hnode' => ?_⟩
      have hnode : s.view.nodes.byId t.nodeID = some node := query_ok hr
      rw [hnode, Option.some.injEq] at hnode'
      exact hnode' ▸ hmaster

theorem startInstance_spec (taskId : Int) (row : Task) (s : State) :
    Ensures ext K (startInstance taskId row) (fun _ s' =>
      s'.view = s.view ∨ s'.view = s.view.schedule taskId row) s := by
  refine Ensures.op fun c r s₁ _ h₁ => ?_
  obtain ⟨-, rfl, rfl⟩ := exec_sched h₁
  simp only [SchedOp.exec]
  split
  · refine Ensures.op fun c r s₂ _ h₂ => Ensures.pure (.inr ?_)
    obtain ⟨-, -, rfl⟩ := exec_sched h₂
    rfl
  · exact Ensures.pure (.inl rfl)

/-- How `Manager.AddTask` can change the schedule. -/
def AddOutcome (K : State → Op → Choice → Prop) (taskId : Int) (v v' : View) : Prop :=
  v' = v ∨ ∃ row, v.taskList.lookup taskId = none ∧ v.tasks.byId taskId = some row ∧
    row.isDisable = false ∧ (Careful K → v.IsLocal row.nodeID) ∧ v' = v.schedule taskId row

/-- `Manager.AddTask` leaves the schedule alone, or schedules a task that is not scheduled
    under the live, enabled row it has read. -/
theorem addTask_spec (taskId : Int) (s : State) :
    Ensures ext K (addTask taskId) (fun _ s' => AddOutcome K taskId s.view s'.view) s := by
  refine (taskListGet_spec taskId s).bind ?_
  rintro r s₁ ⟨h₁, rfl⟩
  cases hti : s.view.taskList.lookup taskId with
  | some ti => exact Ensures.pure (.inl h₁)
  | none =>
    refine (findTask_spec taskId s₁).bind ?_
    rintro r s₂ ⟨h₂, hrow, -⟩
    cases r with
    | error err => exact Ensures.pure (.inl (h₂.trans h₁))
    | ok row =>
      have hbyId : s.view.tasks.byId taskId = some row := h₁ ▸ hrow row rfl
      dsimp only
      split
      · exact Ensures.pure (.inl (h₂.trans h₁))
      · rename_i henabled
        refine (isLocalTask_spec row s₂).bind ?_
        rintro isLocal s₃ ⟨h₃, hlocal⟩
        have h : s₃.view = s.view := h₃.trans (h₂.trans h₁)
        split
        · rename_i hyes
          refine (startInstance_spec taskId row s₃).mono ?_
          rintro _ s₄ (h₄ | h₄)
          · exact .inl (h₄.trans h)
          · refine .inr ⟨row, hti, hbyId, by simpa using henabled, fun hcareful => ?_, ?_⟩
            · rw [← h₁, ← h₂]
              exact hlocal hcareful hyes
            · rw [h₄, h]
        · exact Ensures.pure (.inl h)

end Specs

end Gonitor.Requests
