import Gonitor.Requests.Serving

/-!
# The Server as a Pool of Threads

Requests, `Manager.Stop` and the jobs that cron fires run side by side and take turns
operation by operation.  The thread of a request runs its handler; the thread of a fired job
runs the wrapped job of its entry.  `ImportTasks` is left out of the pool: its transaction
isolates it from the others.

## Local Data

The local data of a thread (`Local`) says where in its code the thread is:

- `stage`: how far it is with stopping or scheduling an instance;
- `run`: how far the run is that it carries out, if any;
- `row`: the task row it has read last.

`next` updates it with every operation of the thread, and `Allowed` is the discipline: which
operations the code performs at which place.
-/

namespace Gonitor.Concurrent

open Gonitor.Model Gonitor.Server Gonitor.Controller Gonitor.Requests AtomicProgram

/-! ## Places in the code -/

/-- How far a thread is with the schedule. -/
inductive Stage
  | idle
  /-- The last lookup under `taskId` has answered the instance `ti`. -/
  | found (taskId : Int) (ti : TaskInstance)
  /-- `ti.stop` has removed the cron entry. -/
  | stopping (taskId : Int) (ti : TaskInstance)
  /-- `ti.stop` has come to its end. -/
  | stopped (taskId : Int) (ti : TaskInstance)
  /-- The job of `taskInfo` has got the entry `entryId`, but is not in `TaskList` yet. -/
  | adding (taskInfo : Task) (entryId : EntryID)
  deriving DecidableEq

/-- Neither in the middle of `stop` nor in the middle of `start`. -/
def Stage.isSettled : Stage → Bool
  | .idle | .found _ _ | .stopped _ _ => true
  | .stopping _ _ | .adding _ _ => false

/-- How far a run is. -/
inductive Phase
  /-- Cron has called the wrapped job. -/
  | fired
  /-- `ExecJobWrapper.Run` or `StartOnceTask` has made the running instance. -/
  | begun
  /-- The log row exists, and no child is there: before an attempt. -/
  | ready
  /-- `cmd.Start` has returned. -/
  | started (pid : Nat)
  /-- `ri.Process` is the handle of the child, and `cmd.Wait` has not reaped it. -/
  | attached (pid : Nat)
  /-- The child has been reaped, and `cmd.Wait` has not returned. -/
  | draining
  | asserting
  /-- The attempt has failed. -/
  | failed
  /-- An attempt has succeeded. -/
  | passed
  /-- `afterRun` has saved the log row. -/
  | completing
  /-- The deferred function has found the run registered. -/
  | deleting
  /-- The run has ended (it may have panicked). -/
  | over
  deriving DecidableEq

/-- A run, as its thread knows it. -/
structure Run where
  task : Task
  scheduled : Bool
  chain : Chain
  entry : EntryID
  log : Option Int
  attempts : Nat
  /-- It has been through `addTaskRunningIns`. -/
  recorded : Bool
  /-- It holds the lock of its wrapped job. -/
  locked : Bool
  phase : Phase
  deriving DecidableEq

/-- The local data of a thread. -/
structure Local where
  row : Option Task
  stage : Stage
  run : Option Run
  deriving DecidableEq

def Local.init : Local := ⟨none, .idle, none⟩

/-- Update the run, if there is one. -/
def Local.mapRun (ℓ : Local) (f : Run → Run) : Local := { ℓ with run := ℓ.run.map f }

/-- The run of a job that cron has just fired. -/
def Run.ofEntry (x : Entry) : Run where
  task := x.job.taskInfo
  scheduled := true
  chain := x.job.chain
  entry := x.id
  log := none
  attempts := 0
  recorded := false
  locked := false
  phase := .fired

/-- The run of a `StartOnceTask` request. -/
def Run.once (task : Task) : Run where
  task := task
  scheduled := false
  chain := .recover
  entry := 0
  log := none
  attempts := 0
  recorded := false
  locked := false
  phase := .begun

/-! ## How operations move a thread -/

/-- A run after a database operation of its thread. -/
def Run.logged (run : Run) : (o : DbOp) → o.Res → Run
  | .createTaskLog row, .ok log =>
    if row.status then { run with log := some log.id, phase := .ready }
    else { run with phase := .over }
  | .createTaskLog _, .error _ => { run with phase := .over }
  | .saveTaskLog _, _ =>
    { run with phase :=
        if run.scheduled = true ∨ run.task.resultHandler.utf8ByteSize > 0 then .completing
        else .over }
  | _, _ => run

def nextDb (ℓ : Local) : (o : DbOp) → o.Res → Local
  | .findTask _, .ok row => { ℓ with row := some row }
  | .createTaskLog row, r => ℓ.mapRun fun run => run.logged (.createTaskLog row) r
  | .saveTaskLog row, r => ℓ.mapRun fun run => run.logged (.saveTaskLog row) r
  | _, _ => ℓ

/-- The stage after an operation on the schedule. -/
def Stage.next (stage : Stage) : (o : SchedOp) → o.Res → Stage
  | .taskListGet taskId, some ti => .found taskId ti
  | .taskListGet _, none => .idle
  | .cronRemove _, _ =>
    match stage with
    | .found taskId ti => .stopping taskId ti
    | other => other
  | .taskListDelete _, _ =>
    match stage with
    | .stopping taskId ti => .stopped taskId ti
    | _ => .idle
  | .cronAddJob _ job, .ok entryId => .adding job.taskInfo entryId
  | .cronAddJob _ _, .error _ => stage
  | .taskListPut _ _, _ => .idle
  | .taskListKeys, _ => stage
  | .runningInstances _, _ => stage
  | .stopRunning _ _, _ => stage

/-- A run after one of its own operations. -/
def Run.advance (run : Run) : (o : RunOp) → o.Res → Run
  | .newRunningInstance _ _, _ => { run with phase := .begun }
  | .startProcess _ _ _ _, .ok pid =>
    { run with attempts := run.attempts + 1, phase := .started pid }
  | .startProcess _ _ _ _, .error _ =>
    { run with attempts := run.attempts + 1, phase := .failed }
  | .setProcess _ pid, _ => { run with phase := .attached pid }
  | .addTaskRunningIns _ _, _ => { run with recorded := true }
  | .reap _, _ => { run with phase := .draining }
  | .waitReturn _ _, .exited _ =>
    { run with phase := if run.task.assert.utf8ByteSize > 0 then .asserting else .passed }
  | .waitReturn _ _, .failed _ _ => { run with phase := .failed }
  | .waitReturn _ _, .timedOut => { run with phase := .failed }
  | .taskAssertResult _ _, result => { run with phase := if result then .passed else .failed }
  | .sleep _, _ => { run with phase := .ready }
  | .resultHandler _, finished =>
    { run with phase := if finished = true ∧ run.scheduled = true then .completing else .over }
  | .isRegistered _ _, some true => { run with phase := .deleting }
  | .isRegistered _ _, some false => { run with phase := .over }
  | .isRegistered _ _, none => { run with phase := .over }
  | .unregister _ _, _ => { run with phase := .over }
  | .tryAcquire _, true => { run with locked := true }
  | .tryAcquire _, false => { run with phase := .over }
  | .acquire _, _ => { run with locked := true }
  | .release _, _ => { run with locked := false }
  | .crash, _ => run

/-- The run of a thread after an operation of the run; a `StartOnceTask` request gets its run
    with its running instance. -/
def nextRun (run? : Option Run) : (o : RunOp) → o.Res → Option Run
  | .newRunningInstance task false, _ => some (Run.once task)
  | o, r => run?.map fun run => run.advance o r

/-- Where a thread is after one of its operations. -/
def next (ℓ : Local) : (o : Op) → o.Res → Local
  | .db o, r => nextDb ℓ o r
  | .sched o, r => { ℓ with stage := ℓ.stage.next o r }
  | .run o, r => { ℓ with run := nextRun ℓ.run o r }
  | .world _, _ => ℓ

/-! ## The discipline -/

/-- The attempts a scheduled run may make. -/
def Run.limit (run : Run) : Int := (Gonitor.Task.execTimes run.task).toInt

/-- The run will start no command any more: it has used its attempts, or one has succeeded,
    or it has ended. -/
def Run.NoAttemptLeft (run : Run) : Prop :=
  run.limit ≤ run.attempts ∨ run.phase = .passed ∨ run.phase = .completing ∨
    run.phase = .deleting ∨ run.phase = .over

instance (run : Run) : Decidable run.NoAttemptLeft := by
  unfold Run.NoAttemptLeft
  infer_instance

/-- The thread carries out a run with the property `P`. -/
def Local.HasRun (ℓ : Local) (P : Run → Prop) : Prop := ∃ run, ℓ.run = some run ∧ P run

def AllowedDb (ℓ : Local) : DbOp → Prop
  | .createTaskLog _ => ℓ.HasRun fun run => run.phase = .begun
  | .saveTaskLog _ => ℓ.HasRun fun run =>
    (run.phase = .passed ∨ run.phase = .ready ∨ run.phase = .failed) ∧
      (run.scheduled = true → run.NoAttemptLeft)
  | .beginTx | .commitTx | .rollbackTx => False
  | _ => True

def AllowedSched (ℓ : Local) : SchedOp → Prop
  | .taskListGet _ => ℓ.stage.isSettled = true
  | .cronRemove e => ∃ taskId ti, ℓ.stage = .found taskId ti ∧ e = ti.entryId
  | .runningInstances e | .stopRunning e _ =>
    ∃ taskId ti, ℓ.stage = .stopping taskId ti ∧ e = ti.entryId
  | .taskListDelete k =>
    (∃ taskId ti, ℓ.stage = .stopping taskId ti ∧ k = ti.taskInfo.id) ∨
      ∃ taskId ti, ℓ.stage = .stopped taskId ti ∧ k = taskId
  | .cronAddJob _ job =>
    ℓ.stage = .idle ∧ ℓ.row = some job.taskInfo ∧ job = Gonitor.Task.wrappedJob job.taskInfo
  | .taskListPut k ti => ∃ taskInfo entryId, ℓ.stage = .adding taskInfo entryId ∧
    k = taskInfo.id ∧ ti.taskInfo = taskInfo ∧ ti.entryId = entryId
  | .taskListKeys => True

def AllowedRun (ℓ : Local) : RunOp → Prop
  | .newRunningInstance task scheduled =>
    if scheduled then ℓ.HasRun fun run => run.phase = .fired ∧ run.task = task ∧
      (run.chain ≠ .recover → run.locked = true)
    else ℓ.run = none
  | .startProcess task log _ _ => ℓ.HasRun fun run => run.phase = .ready ∧
    run.log = some log ∧ run.task = task ∧ (run.scheduled = true → run.attempts < run.limit)
  | .setProcess log pid => ℓ.HasRun fun run => run.phase = .started pid ∧ run.log = some log
  | .addTaskRunningIns taskId log => ℓ.HasRun fun run =>
    (∃ pid, run.phase = .attached pid) ∧ run.log = some log ∧ taskId = run.task.id
  | .reap log => ℓ.HasRun fun run =>
    (∃ pid, run.phase = .attached pid) ∧ run.log = some log ∧ run.recorded = true
  | .waitReturn log _ => ℓ.HasRun fun run => run.phase = .draining ∧ run.log = some log
  | .taskAssertResult _ _ => ℓ.HasRun fun run => run.phase = .asserting
  | .sleep _ => ℓ.HasRun fun run => run.phase = .failed ∧ run.scheduled = true
  | .resultHandler _ => ℓ.HasRun fun run => run.phase = .completing
  | .isRegistered taskId log => ℓ.HasRun fun run => run.phase = .completing ∧
    run.scheduled = true ∧ run.log = some log ∧ taskId = run.task.id
  | .unregister taskId log => ℓ.HasRun fun run => run.phase = .deleting ∧
    run.scheduled = true ∧ run.log = some log ∧ taskId = run.task.id
  | .tryAcquire e => ℓ.HasRun fun run => run.phase = .fired ∧ run.locked = false ∧ e = run.entry
  | .acquire e => ℓ.HasRun fun run => run.phase = .fired ∧ run.locked = false ∧ e = run.entry
  | .release e => ℓ.HasRun fun run => run.phase = .over ∧ run.locked = true ∧ e = run.entry
  | .crash => ℓ.HasRun fun run => run.phase = .over

/-- The operations that the code performs where `ℓ` is. -/
def Allowed (ℓ : Local) : Op → Prop
  | .db o => AllowedDb ℓ o
  | .sched o => AllowedSched ℓ o
  | .run o => AllowedRun ℓ o
  | .world _ => True

/-- Where a thread can end. -/
def Final (ℓ : Local) : Prop :=
  ℓ.stage.isSettled = true ∧ ∀ run, ℓ.run = some run → run.phase = .over

/-! ## The pool -/

/-- What starts a thread. -/
inductive Start
  | request (caller : Caller) (req : Request)
  | managerStop
  | fire (e : EntryID)

/-- The thread that is started; cron only fires entries it has.  `ImportTasks`, which works in a
    transaction, is not among the requests: its tasks are disabled, and it schedules none of them. -/
def spawn (ext : Externals) (x : Start) (s : State) : Option (Thread Op Op.Res Reply Local) :=
  if s.os.crashed then none
  else match x with
    | .request _ (.importTasks _) => none
    | .request caller req => some ⟨req.handle ext caller, .init⟩
    | .managerStop => some ⟨do Gonitor.Task.stop; pure .done, .init⟩
    | .fire e =>
      match s.sched.cron.entries.find? (fun x => x.id == e) with
      | none => none
      | some x => some ⟨do Gonitor.Task.runWrapped ext x.id x.job; pure .done,
          { Local.init with run := some (Run.ofEntry x) }⟩

/-- The server. -/
def server (ext : Externals) : System Op Op.Res Reply State Local Choice Start where
  exec := exec ext
  next := next
  spawn := spawn ext

/-- The pools of the server. -/
abbrev ServerPool := Pool Op Op.Res Reply State Local

/-- The pool after start-up: no thread yet. -/
def Initial (ext : Externals) (p : ServerPool) : Prop :=
  StartedUp ext AnyStep p.shared ∧ ∀ tid, p.threads tid = none

/-- `p` is reached after start-up by any steps of any threads. -/
def Reached (ext : Externals) (p : ServerPool) : Prop :=
  ∃ p₀, Initial ext p₀ ∧ (server ext).Reach (fun _ _ => True) p₀ p

/-- The local data of the threads of a pool. -/
def locals (p : ServerPool) (tid : Nat) : Option Local := (p.threads tid).map fun th => th.loc

/-- The stage of a thread; a thread that does not exist is idle. -/
def stages (L : Nat → Option Local) (tid : Nat) : Stage :=
  match L tid with
  | none => .idle
  | some ℓ => ℓ.stage

/-- The run of a thread, if it carries one out. -/
def runs (L : Nat → Option Local) (tid : Nat) : Option Run := (L tid).bind fun ℓ => ℓ.run

/-- The run that a thread of the pool carries out. -/
def runOf (p : ServerPool) (tid : Nat) : Option Run := runs (locals p) tid

/-- The next operation of the thread is `o`. -/
def AtOp (p : ServerPool) (tid : Nat) (o : Op) : Prop :=
  ∃ k ℓ, p.threads tid = some ⟨.op o k, ℓ⟩

end Gonitor.Concurrent
