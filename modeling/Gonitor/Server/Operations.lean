import Gonitor.Server.State
import Gonitor.Framework.AtomicProgram

/-!
# The Atomic Operations of the Master

Each operation is one step no other thread can interrupt: one query or statement of the
database, one access to `Manager.TaskList`, one call of the cron scheduler, one step of a
child process.  `exec` says what an operation does; what is left open (does the database
fail, which process id does the system hand out, how does the command end) is resolved by
a `Choice`.  Operations are grouped by the part of the state they touch, so that a fact
about one part is kept by all operations of the other groups.
-/

namespace Gonitor.Server

open Gonitor.Model SoftDelete AtomicProgram

/-! ## Database operations -/

/-- `dbRt.Error` -/
inductive DbError
  | recordNotFound
  | failure (text : String)
  deriving DecidableEq, Repr

/-- `err.Error()` -/
def DbError.text : DbError → String
  | .recordNotFound => "record not found"
  | .failure text => text

/-- Which function looks a node up by its id. -/
inductive NodeLookup
  | managerIsLocalTask
  | controllerIsLocalTask
  | syncTaskToNode
  | nodeRequest
  deriving DecidableEq, Repr

inductive DbOp
  | findTask (id : Int)
  | enabledTasks
  | createTask (row : Task)
  | saveTask (row : Task)
  | deleteTask (id : Int)
  | beginTx
  | commitTx
  | rollbackTx
  | findNode (site : NodeLookup) (id : Int)
  | findNodeNamed (name : String) (except : Option Int)
  | countNodeTasks (id : Int)
  | createNode (row : Node)
  | saveNode (row : Node)
  | deleteNode (id : Int)
  | lastEndedLog (taskId : Int)
  | createTaskLog (row : TaskLog)
  | saveTaskLog (row : TaskLog)
  | findMaster
  | findNodeWithKey (secretKey : String)
  | nodeTasks (nodeID : Int) (since : Option Time)
  | findNodeTask (id nodeID : Int)
  | createReportLog (row : TaskLog)
  | createNodeEvent (row : NodeEvent)
  | userInfo (id : Int)
  | findUserByAccount (loginAccount : String)
  | createUser (row : User)
  | saveUser (row : User)
  | deleteUser (id : Int)
  | deleteUserTokens (userID : Int)
  | createUserToken (row : UserToken)
  | createOperationLog (row : OperationLog)

@[reducible] def DbOp.Res : DbOp → Type
  | .findTask _ => Except DbError Task
  | .enabledTasks => Except DbError (List Task)
  | .createTask _ => Except DbError Task
  | .saveTask _ => Except DbError Unit
  | .deleteTask _ => Except DbError Unit
  | .beginTx => Except DbError Unit
  | .commitTx => Except DbError Unit
  | .rollbackTx => Unit
  | .findNode _ _ => Except DbError Node
  | .findNodeNamed _ _ => Except DbError Node
  | .countNodeTasks _ => Nat
  | .createNode _ => Except DbError Node
  | .saveNode _ => Except DbError Unit
  | .deleteNode _ => Except DbError Unit
  | .lastEndedLog _ => Except DbError TaskLog
  | .createTaskLog _ => Except DbError TaskLog
  | .saveTaskLog _ => Except DbError Unit
  | .findMaster => Except DbError Node
  | .findNodeWithKey _ => Except DbError Node
  | .nodeTasks _ _ => List Task
  | .findNodeTask _ _ => Except DbError Task
  | .createReportLog _ => Except DbError TaskLog
  | .createNodeEvent _ => Except DbError NodeEvent
  | .userInfo _ => Except DbError User
  | .findUserByAccount _ => Except DbError User
  | .createUser _ => Except DbError User
  | .saveUser _ => Except DbError Unit
  | .deleteUser _ => Except DbError Unit
  | .deleteUserTokens _ => Except DbError Unit
  | .createUserToken _ => Except DbError UserToken
  | .createOperationLog _ => Except DbError Unit

/-! ## Scheduler operations -/

inductive SchedOp
  | taskListGet (id : Int)
  | taskListKeys
  | taskListPut (id : Int) (ti : TaskInstance)
  | taskListDelete (id : Int)
  | cronAddJob (spec : String) (job : WrappedJob)
  | cronRemove (e : EntryID)
  | runningInstances (e : EntryID)
  | stopRunning (e : EntryID) (log : Int)

@[reducible] def SchedOp.Res : SchedOp → Type
  | .taskListGet _ => Option TaskInstance
  | .taskListKeys => List Int
  | .taskListPut _ _ => Unit
  | .taskListDelete _ => Unit
  | .cronAddJob _ _ => Except String EntryID
  | .cronRemove _ => Unit
  | .runningInstances _ => List Int
  | .stopRunning _ _ => Unit

/-! ## Operations of a run -/

/-- How `cmd.Wait` ends. -/
inductive WaitResult
  | exited (stdout : String)
  | failed (err stderr : String)
  | timedOut
  deriving DecidableEq, Repr

inductive RunOp
  | newRunningInstance (taskInfo : Task) (scheduled : Bool)
  | startProcess (taskInfo : Task) (log : Int) (command : String) (args : List String)
  | setProcess (log : Int) (pid : Nat)
  | addTaskRunningIns (taskId log : Int)
  | reap (log : Int)
  | waitReturn (log : Int) (timeout : Int64)
  | taskAssertResult (output jsCode : String)
  | sleep (d : Int64)
  | resultHandler (code : String)
  | isRegistered (taskId log : Int)
  | unregister (taskId log : Int)
  | tryAcquire (e : EntryID)
  | acquire (e : EntryID)
  | release (e : EntryID)
  | crash

@[reducible] def RunOp.Res : RunOp → Type
  | .newRunningInstance _ _ => Unit
  | .startProcess _ _ _ _ => Except String Nat
  | .setProcess _ _ => Unit
  | .addTaskRunningIns _ _ => Unit
  | .reap _ => Unit
  | .waitReturn _ _ => WaitResult
  | .taskAssertResult _ _ => Bool
  | .sleep _ => Unit
  | .resultHandler _ => Bool
  | .isRegistered _ _ => Option Bool
  | .unregister _ _ => Bool
  | .tryAcquire _ => Bool
  | .acquire _ => Unit
  | .release _ => Unit
  | .crash => Unit

/-! ## The world outside -/

inductive WorldOp
  | now
  | randomString (len : Nat)
  | hashPassword (password : String)
  | sshDial (host : String) (port : Int64) (user password : String)
  | runSSHCommand (command : String)

@[reducible] def WorldOp.Res : WorldOp → Type
  | .now => Time
  | .randomString _ => String
  | .hashPassword _ => Except String String
  | .sshDial _ _ _ _ => Except String Unit
  | .runSSHCommand _ => String × Option String

/-- The atomic operations. -/
inductive Op
  | db (o : DbOp)
  | sched (o : SchedOp)
  | run (o : RunOp)
  | world (o : WorldOp)

@[reducible] def Op.Res : Op → Type
  | .db o => o.Res
  | .sched o => o.Res
  | .run o => o.Res
  | .world o => o.Res

/-- Programs of the master. -/
abbrev Program (α : Type) := Prog Op Op.Res α

/-! ## What the operations do -/

/-- What an operation leaves open. -/
structure Choice where
  elapsed : Nat := 0
  fail : Bool := false
  text : String := ""
  pid : Nat := 0
  wait : WaitResult := .exited ""
  flag : Bool := true

/-- A query that can fail. -/
def query {α : Type} (c : Choice) (r : Option α) : Except DbError α :=
  if c.fail then .error (.failure c.text)
  else match r with
    | some a => .ok a
    | none => .error .recordNotFound

/-- A statement that can fail (then it leaves everything as it was); `none` is a violated
    constraint. -/
def statement {α : Type} (c : Choice) (d : Database) (r : Option (α × Database)) :
    Except DbError α × Database :=
  if c.fail then (.error (.failure c.text), d)
  else match r with
    | some (a, d') => (.ok a, d')
    | none => (.error (.failure c.text), d)

/-- The unique index on `node.name` covers the deleted rows too. -/
def nodeNameFree (t : Table Node) (row : Node) : Bool :=
  t.rows.all (fun n => n.name != row.name || n.id == row.id)

/-- The last log row of a task that is no longer running: `task_id = ? AND status = false`,
    by descending id. -/
def endedLogOf (t : Table TaskLog) (taskId : Int) : Option TaskLog :=
  (t.find (fun l => l.taskId == taskId && !l.status)).getLast?

/-- `update_time > ?`, where a time is given. -/
def updatedAfter (since : Option Time) (t : Task) : Bool :=
  match since with
  | none => true
  | some instant => decide (instant < t.updatedAt)

def DbOp.exec (c : Choice) (now : Time) (d : Database) : (o : DbOp) → o.Res × Database
  | .findTask id => (query c (d.task.byId id), d)
  | .enabledTasks => (query c (some (d.task.find (fun t => !t.isDisable))), d)
  | .createTask row =>
    statement c d (some (d.task.inserted row.withDefaults now,
      { d with task := d.task.create row.withDefaults now }))
  | .saveTask row =>
    statement c d ((d.task.save row now).map fun t => ((), { d with task := t }))
  | .deleteTask id => statement c d (some ((), { d with task := d.task.delete id now }))
  | .beginTx => statement c d (some ((), { d with savepoint := some d.task }))
  | .commitTx =>
    -- the transaction is over in any case; a commit that fails undoes it
    if c.fail then (.error (.failure c.text), { d with task := d.savepoint.getD d.task, savepoint := none })
    else (.ok (), { d with savepoint := none })
  | .rollbackTx => ((), { d with task := d.savepoint.getD d.task, savepoint := none })
  | .findNode _ id => (query c (d.node.byId id), d)
  | .findNodeNamed name except =>
    (query c (d.node.first (fun n => n.name == name && some n.id != except)), d)
  | .countNodeTasks id =>
    -- the error of `Count` is not looked at: the number stays 0
    (if c.fail then 0 else (d.task.find (fun t => t.nodeID == id)).length, d)
  | .createNode row =>
    -- the new key is not known yet, so no row is spared by `n.id == row.id`
    statement c d (if nodeNameFree d.node { row with id := 0 } then
      some (d.node.inserted row now, { d with node := d.node.create row now }) else none)
  | .saveNode row =>
    statement c d (if nodeNameFree d.node row then
      (d.node.save row now).map fun t => ((), { d with node := t }) else none)
  | .deleteNode id => statement c d (some ((), { d with node := d.node.delete id now }))
  | .lastEndedLog taskId => (query c (endedLogOf d.taskLog taskId), d)
  | .createTaskLog row =>
    statement c d (some (d.taskLog.inserted row now,
      { d with taskLog := d.taskLog.create row now }))
  | .saveTaskLog row =>
    statement c d ((d.taskLog.save row now).map fun t => ((), { d with taskLog := t }))
  | .findMaster => (query c (d.node.first (fun n => n.isMaster)), d)
  | .findNodeWithKey secretKey => (query c (d.node.first (fun n => n.secretKey == secretKey)), d)
  | .nodeTasks nodeID since =>
    -- the error of `Find` is not looked at: the list stays empty
    (if c.fail then [] else d.task.find (fun t => t.nodeID == nodeID && updatedAfter since t), d)
  | .findNodeTask id nodeID =>
    (query c (d.task.first (fun t => t.id == id && t.nodeID == nodeID)), d)
  | .createReportLog row =>
    statement c d (some (d.taskLog.inserted row now,
      { d with taskLog := d.taskLog.create row now }))
  | .createNodeEvent row =>
    statement c d (some (d.nodeEvent.inserted row now,
      { d with nodeEvent := d.nodeEvent.create row now }))
  | .userInfo id => (query c (d.user.byId id), d)
  | .findUserByAccount loginAccount =>
    (query c (d.user.first (fun u => u.loginAccount == loginAccount)), d)
  | .createUser row =>
    statement c d (some (d.user.inserted row now, { d with user := d.user.create row now }))
  | .saveUser row =>
    statement c d ((d.user.save row now).map fun t => ((), { d with user := t }))
  | .deleteUser id => statement c d (some ((), { d with user := d.user.delete id now }))
  | .deleteUserTokens userID =>
    statement c d (some ((),
      { d with userToken := d.userToken.deleteWhere (fun u => u.userID == userID) now }))
  | .createUserToken row =>
    statement c d (some (d.userToken.inserted row now,
      { d with userToken := d.userToken.create row now }))
  | .createOperationLog row =>
    statement c d (some ((), { d with operationLog := d.operationLog.create row now }))

/-- `Manager.cron.AddJob`: the schedule is parsed, and the job gets an entry of its own. -/
def Cron.addJob (cron : Cron) (job : WrappedJob) : Cron :=
  { entries := cron.entries ++ [⟨cron.nextID, job⟩], nextID := cron.nextID + 1 }

/-- `Manager.cron.Remove` -/
def Cron.remove (cron : Cron) (e : EntryID) : Cron :=
  { cron with entries := cron.entries.filter (fun entry => entry.id != e) }

/-- The process a running instance would signal: its log row and the process id in its
    handle. -/
def Processes.target (os : Processes) (log : Int) : Option (Int × Nat) :=
  (os.handles.lookup log).map (fun pid => (log, pid))

def SchedOp.exec (ext : Externals) (c : Choice) (d : Scheduler) (os : Processes) :
    (o : SchedOp) → o.Res × Scheduler × Processes
  | .taskListGet id => (d.taskList.lookup id, d, os)
  | .taskListKeys => (d.taskList.keys, d, os)
  | .taskListPut id ti => ((), { d with taskList := d.taskList.insert id ti }, os)
  | .taskListDelete id => ((), { d with taskList := d.taskList.erase id }, os)
  | .cronAddJob spec job =>
    if ext.cronParse spec then (.ok d.cron.nextID, { d with cron := d.cron.addJob job }, os)
    else (.error c.text, d, os)
  | .cronRemove e => ((), { d with cron := d.cron.remove e }, os)
  | .runningInstances e => (d.running e, d, os)
  | .stopRunning e log =>
    -- ranging over a map skips a key that has left it before its turn
    if log ∈ d.running e then
      ((), d, { os with signals := (os.target log).toList ++ os.signals })
    else ((), d, os)

/-- `addTaskRunningIns`: the run of a task that is not in `TaskList` is not registered. -/
def Scheduler.register (d : Scheduler) (taskId log : Int) : Scheduler :=
  match d.taskList.lookup taskId with
  | none => d
  | some ti =>
    { d with running := Function.update d.running ti.entryId ((d.running ti.entryId).insert log) }

/-- The end of the deferred function: `delete(TaskList[id].RunningInstances, log)`. -/
def Scheduler.forget (d : Scheduler) (ti : TaskInstance) (log : Int) : Scheduler :=
  { d with
    running := Function.update d.running ti.entryId
      ((d.running ti.entryId).filter (fun l => l != log)) }

/-- No child that has not been waited for has this process id. -/
def Processes.pidFree (os : Processes) (pid : Nat) : Bool :=
  os.procs.all (fun p => p.reaped || p.pid != pid)

/-- The operations of a run; `none` where the operation blocks, or where the choice is one
    the system cannot make. -/
def RunOp.exec (c : Choice) (d : Scheduler) (os : Processes) :
    (o : RunOp) → Option (o.Res × Scheduler × Processes)
  | .newRunningInstance _ _ => some ((), d, os)
  | .startProcess _ log _ _ =>
    if c.fail then some (.error c.text, d, os)
    else if os.pidFree c.pid then
      -- the system gives a process id that no child holds
      some (.ok c.pid, d, { os with procs := ⟨c.pid, log, false⟩ :: os.procs })
    else none
  | .setProcess log pid => some ((), d, { os with handles := os.handles.insert log pid })
  | .addTaskRunningIns taskId log => some ((), d.register taskId log, os)
  | .reap log =>
    some ((), d, { os with procs := os.procs.map (fun p =>
      if p.log = log then { p with reaped := true } else p) })
  | .waitReturn _ timeout =>
    -- without a positive timeout there is no deadline to pass
    if c.wait = .timedOut ∧ timeout ≤ 0 then none else some (c.wait, d, os)
  | .taskAssertResult _ _ => some (c.flag, d, os)
  | .sleep _ => some ((), d, os)
  | .resultHandler _ => some (!c.fail, d, os)
  | .isRegistered taskId log =>
    -- a read through a missing `*taskInstance` panics: `none`
    some ((d.taskList.lookup taskId).map (fun ti => decide (log ∈ d.running ti.entryId)), d, os)
  | .unregister taskId log =>
    match d.taskList.lookup taskId with
    -- the entry has gone since the line before
    | none => some (false, d, os)
    | some ti => some (true, d.forget ti log, os)
  | .tryAcquire e =>
    if d.locked e then some (false, d, os)
    else some (true, { d with locked := Function.update d.locked e true }, os)
  | .acquire e =>
    -- a job that is to be delayed waits until the token is back
    if d.locked e then none
    else some ((), { d with locked := Function.update d.locked e true }, os)
  | .release e => some ((), { d with locked := Function.update d.locked e false }, os)
  | .crash => some ((), d, { os with crashed := true })

/-- An alphanumeric character, as `CreateRandomString` draws them. -/
def isAlphanumeric (ch : Char) : Bool := ch.isAlphanum

/-- What the world answers; it changes nothing in the state. -/
def WorldOp.exec (c : Choice) (now : Time) : (o : WorldOp) → Option o.Res
  | .now => some now
  | .randomString len =>
    if c.text.length = len ∧ c.text.toList.all isAlphanumeric then some c.text else none
  | .hashPassword _ => some (if c.fail then .error c.text else .ok c.text)
  | .sshDial _ _ _ _ => some (if c.fail then .error c.text else .ok ())
  | .runSSHCommand _ => some (c.text, if c.fail then some c.text else none)

/-- One operation.  Time passes before it; nothing happens any more once the server has
    crashed. -/
def exec (ext : Externals) (o : Op) (c : Choice) (s : State) : Option (o.Res × State) :=
  if s.os.crashed then none
  else
    let now := s.clock + c.elapsed
    match o with
    | .db o =>
      let (r, d) := o.exec c now s.db
      some (r, { s with clock := now, db := d })
    | .sched o =>
      let (r, d, os) := o.exec ext c s.sched s.os
      some (r, { s with clock := now, sched := d, os := os })
    | .run o => (o.exec c s.sched s.os).map fun (r, d, os) =>
        (r, { s with clock := now, sched := d, os := os })
    | .world o => (o.exec c now).map fun r => (r, { s with clock := now })

/-! ## What a performed operation tells -/

/-- What holds of a database before a statement and of the database it would make holds
    after the statement. -/
theorem statement_keeps {α : Type} {c : Choice} {d : Database} {r : Option (α × Database)}
    {I : Database → Prop} (hd : I d) (hr : ∀ a d', r = some (a, d') → I d') :
    I (statement c d r).2 := by
  unfold statement
  split
  · exact hd
  · cases r with
    | none => exact hd
    | some x => exact hr x.1 x.2 rfl

section Inversion

variable {ext : Externals} {c : Choice} {s s' : State}

theorem exec_db {o : DbOp} {r : o.Res} (h : exec ext (.db o) c s = some (r, s')) :
    s.os.crashed = false ∧ r = (o.exec c (s.clock + c.elapsed) s.db).1 ∧
      s' = { s with
        clock := s.clock + c.elapsed
        db := (o.exec c (s.clock + c.elapsed) s.db).2 } := by
  unfold exec at h
  split at h
  · cases h
  · rename_i hcrashed
    simp only [Option.some.injEq, Prod.mk.injEq] at h
    exact ⟨by simpa using hcrashed, h.1.symm, h.2.symm⟩

theorem exec_sched {o : SchedOp} {r : o.Res} (h : exec ext (.sched o) c s = some (r, s')) :
    s.os.crashed = false ∧ r = (o.exec ext c s.sched s.os).1 ∧
      s' = { s with
        clock := s.clock + c.elapsed
        sched := (o.exec ext c s.sched s.os).2.1
        os := (o.exec ext c s.sched s.os).2.2 } := by
  unfold exec at h
  split at h
  · cases h
  · rename_i hcrashed
    simp only [Option.some.injEq, Prod.mk.injEq] at h
    exact ⟨by simpa using hcrashed, h.1.symm, h.2.symm⟩

theorem exec_run {o : RunOp} {r : o.Res} (h : exec ext (.run o) c s = some (r, s')) :
    s.os.crashed = false ∧ ∃ d os, o.exec c s.sched s.os = some (r, d, os) ∧
      s' = { s with clock := s.clock + c.elapsed, sched := d, os := os } := by
  unfold exec at h
  split at h
  · cases h
  · rename_i hcrashed
    simp only [Option.map_eq_some_iff, Prod.mk.injEq] at h
    obtain ⟨⟨r', d, os⟩, hrun, hr, hs⟩ := h
    exact ⟨by simpa using hcrashed, d, os, hr ▸ hrun, hs.symm⟩

theorem exec_world {o : WorldOp} {r : o.Res} (h : exec ext (.world o) c s = some (r, s')) :
    s.os.crashed = false ∧ o.exec c (s.clock + c.elapsed) = some r ∧
      s' = { s with clock := s.clock + c.elapsed } := by
  unfold exec at h
  split at h
  · cases h
  · rename_i hcrashed
    simp only [Option.map_eq_some_iff, Prod.mk.injEq] at h
    obtain ⟨r', hworld, hr, hs⟩ := h
    exact ⟨by simpa using hcrashed, hr ▸ hworld, hs.symm⟩

/-- While the server runs, an operation on the database can be performed. -/
theorem exec_of_db (o : DbOp) (hs : s.os.crashed = false) : exec ext (.db o) c s =
    some ((o.exec c (s.clock + c.elapsed) s.db).1, { s with
      clock := s.clock + c.elapsed
      db := (o.exec c (s.clock + c.elapsed) s.db).2 }) := by
  simp only [exec, hs, Bool.false_eq_true, if_false]

/-- So can one on the schedule. -/
theorem exec_of_sched (o : SchedOp) (hs : s.os.crashed = false) : exec ext (.sched o) c s =
    some ((o.exec ext c s.sched s.os).1, { s with
      clock := s.clock + c.elapsed
      sched := (o.exec ext c s.sched s.os).2.1
      os := (o.exec ext c s.sched s.os).2.2 }) := by
  simp only [exec, hs, Bool.false_eq_true, if_false]

end Inversion

/-! ## The operations as programs -/

def findTask (id : Int) : Program (Except DbError Task) := Prog.call (Op.db (.findTask id))
def enabledTasks : Program (Except DbError (List Task)) := Prog.call (Op.db .enabledTasks)
def createTask (row : Task) : Program (Except DbError Task) := Prog.call (Op.db (.createTask row))
def saveTask (row : Task) : Program (Except DbError Unit) := Prog.call (Op.db (.saveTask row))
def deleteTaskRow (id : Int) : Program (Except DbError Unit) := Prog.call (Op.db (.deleteTask id))
def beginTx : Program (Except DbError Unit) := Prog.call (Op.db .beginTx)
def commitTx : Program (Except DbError Unit) := Prog.call (Op.db .commitTx)
def rollbackTx : Program Unit := Prog.call (Op.db .rollbackTx)
def findNode (site : NodeLookup) (id : Int) : Program (Except DbError Node) :=
  Prog.call (Op.db (.findNode site id))
def findNodeNamed (name : String) (except : Option Int) : Program (Except DbError Node) :=
  Prog.call (Op.db (.findNodeNamed name except))
def countNodeTasks (id : Int) : Program Nat := Prog.call (Op.db (.countNodeTasks id))
def createNode (row : Node) : Program (Except DbError Node) := Prog.call (Op.db (.createNode row))
def saveNode (row : Node) : Program (Except DbError Unit) := Prog.call (Op.db (.saveNode row))
def deleteNodeRow (id : Int) : Program (Except DbError Unit) := Prog.call (Op.db (.deleteNode id))
def findLastEndedLog (taskId : Int) : Program (Except DbError TaskLog) :=
  Prog.call (Op.db (.lastEndedLog taskId))
def createTaskLog (row : TaskLog) : Program (Except DbError TaskLog) :=
  Prog.call (Op.db (.createTaskLog row))
def saveTaskLog (row : TaskLog) : Program (Except DbError Unit) :=
  Prog.call (Op.db (.saveTaskLog row))
def findMaster : Program (Except DbError Node) := Prog.call (Op.db .findMaster)
def findNodeWithKey (secretKey : String) : Program (Except DbError Node) :=
  Prog.call (Op.db (.findNodeWithKey secretKey))
def nodeTasks (nodeID : Int) (since : Option Time) : Program (List Task) :=
  Prog.call (Op.db (.nodeTasks nodeID since))
def findNodeTask (id nodeID : Int) : Program (Except DbError Task) :=
  Prog.call (Op.db (.findNodeTask id nodeID))
def createReportLog (row : TaskLog) : Program (Except DbError TaskLog) :=
  Prog.call (Op.db (.createReportLog row))
def createNodeEvent (row : NodeEvent) : Program (Except DbError NodeEvent) :=
  Prog.call (Op.db (.createNodeEvent row))
def userInfo (id : Int) : Program (Except DbError User) := Prog.call (Op.db (.userInfo id))
def findUserByAccount (loginAccount : String) : Program (Except DbError User) :=
  Prog.call (Op.db (.findUserByAccount loginAccount))
def createUser (row : User) : Program (Except DbError User) := Prog.call (Op.db (.createUser row))
def saveUser (row : User) : Program (Except DbError Unit) := Prog.call (Op.db (.saveUser row))
def deleteUserRow (id : Int) : Program (Except DbError Unit) := Prog.call (Op.db (.deleteUser id))
def deleteUserTokens (userID : Int) : Program (Except DbError Unit) :=
  Prog.call (Op.db (.deleteUserTokens userID))
def createUserToken (row : UserToken) : Program (Except DbError UserToken) :=
  Prog.call (Op.db (.createUserToken row))
def createOperationLog (row : OperationLog) : Program (Except DbError Unit) :=
  Prog.call (Op.db (.createOperationLog row))

def taskListGet (id : Int) : Program (Option TaskInstance) := Prog.call (Op.sched (.taskListGet id))
def taskListKeys : Program (List Int) := Prog.call (Op.sched .taskListKeys)
def taskListPut (id : Int) (ti : TaskInstance) : Program Unit :=
  Prog.call (Op.sched (.taskListPut id ti))
def taskListDelete (id : Int) : Program Unit := Prog.call (Op.sched (.taskListDelete id))
def cronAddJob (spec : String) (job : WrappedJob) : Program (Except String EntryID) :=
  Prog.call (Op.sched (.cronAddJob spec job))
def cronRemove (e : EntryID) : Program Unit := Prog.call (Op.sched (.cronRemove e))
def runningInstances (e : EntryID) : Program (List Int) :=
  Prog.call (Op.sched (.runningInstances e))
def stopRunning (e : EntryID) (log : Int) : Program Unit :=
  Prog.call (Op.sched (.stopRunning e log))

def newRunningInstance (taskInfo : Task) (scheduled : Bool) : Program Unit :=
  Prog.call (Op.run (.newRunningInstance taskInfo scheduled))
def startProcess (taskInfo : Task) (log : Int) (command : String) (args : List String) :
    Program (Except String Nat) := Prog.call (Op.run (.startProcess taskInfo log command args))
def setProcess (log : Int) (pid : Nat) : Program Unit := Prog.call (Op.run (.setProcess log pid))
def addTaskRunningIns (taskId log : Int) : Program Unit :=
  Prog.call (Op.run (.addTaskRunningIns taskId log))
def reap (log : Int) : Program Unit := Prog.call (Op.run (.reap log))
def waitReturn (log : Int) (timeout : Int64) : Program WaitResult :=
  Prog.call (Op.run (.waitReturn log timeout))
def taskAssertResult (output jsCode : String) : Program Bool :=
  Prog.call (Op.run (.taskAssertResult output jsCode))
def sleep (d : Int64) : Program Unit := Prog.call (Op.run (.sleep d))
def resultHandler (code : String) : Program Bool := Prog.call (Op.run (.resultHandler code))
def isRegistered (taskId log : Int) : Program (Option Bool) :=
  Prog.call (Op.run (.isRegistered taskId log))
def unregister (taskId log : Int) : Program Bool := Prog.call (Op.run (.unregister taskId log))
def tryAcquire (e : EntryID) : Program Bool := Prog.call (Op.run (.tryAcquire e))
def acquire (e : EntryID) : Program Unit := Prog.call (Op.run (.acquire e))
def release (e : EntryID) : Program Unit := Prog.call (Op.run (.release e))
def crash : Program Unit := Prog.call (Op.run .crash)

def now : Program Time := Prog.call (Op.world .now)
def randomString (len : Nat) : Program String := Prog.call (Op.world (.randomString len))
def hashPassword (password : String) : Program (Except String String) :=
  Prog.call (Op.world (.hashPassword password))
def sshDial (host : String) (port : Int64) (user password : String) :
    Program (Except String Unit) := Prog.call (Op.world (.sshDial host port user password))
def runSSHCommand (command : String) : Program (String × Option String) :=
  Prog.call (Op.world (.runSSHCommand command))

end Gonitor.Server
