import Gonitor.Model.Rows
import Mathlib.Data.List.AList

/-!
# The State of the Master

The database, the scheduler of `package task` (the cron entries and `Manager.TaskList`)
and the child processes.  Maps keyed by ids are finite maps, as in the source.

A `*taskInstance` is stored by value in `TaskList`, except for its `RunningInstances`:
`stop` reaches that map through a pointer it obtained earlier, so the map is kept apart
(`Scheduler.running`), under the `EntryId` of its instance, which no other instance
shares.  A `*RunningInstance` is represented by the id of its log row, which is its key
in `RunningInstances`; what `stop` reads of it is its process handle (`Processes.handles`).
-/

namespace Gonitor.Server

open Gonitor.Model SoftDelete

/-! ## Database -/

/-- The tables.  `savepoint` holds the task table as it was at `Begin`. -/
structure Database where
  task : Table Task
  node : Table Node
  taskLog : Table TaskLog
  nodeEvent : Table NodeEvent
  user : Table User
  userToken : Table UserToken
  operationLog : Table OperationLog
  savepoint : Option (Table Task)

/-! ## Scheduler -/

/-- `cron.EntryID` -/
abbrev EntryID := Nat

/-- What `getTaskChain` wraps a job in. -/
inductive Chain
  | recover
  | skipIfStillRunning
  | delayIfStillRunning
  deriving DecidableEq, Repr

/-- The job handed to `cron.AddJob`: the `ExecJobWrapper` of a task inside its chain. -/
structure WrappedJob where
  chain : Chain
  taskInfo : Task
  deriving DecidableEq

/-- `cron.Entry` -/
structure Entry where
  id : EntryID
  job : WrappedJob
  deriving DecidableEq

/-- The entries of the cron scheduler and the id it hands out next (from 1). -/
structure Cron where
  entries : List Entry
  nextID : EntryID

/-- `taskInstance` (its `RunningInstances` are in `Scheduler.running`). -/
structure TaskInstance where
  taskID : Int
  taskInfo : Task
  entryId : EntryID
  deriving DecidableEq

/-- The global `Manager`, with the locks of the wrapped jobs: `locked e` tells whether the
    wrapper made for entry `e` is in a call. -/
structure Scheduler where
  cron : Cron
  taskList : AList (fun _ : Int => TaskInstance)
  running : EntryID → List Int
  locked : EntryID → Bool

/-- The scheduler before `Manager.Start`. -/
def Scheduler.init : Scheduler where
  cron := ⟨[], 1⟩
  taskList := ∅
  running _ := []
  locked _ := false

/-! ## Processes -/

/-- A child process the master has started: its id, the log row of the run that started
    it, and whether it has been waited for. -/
structure Proc where
  pid : Nat
  log : Int
  reaped : Bool
  deriving DecidableEq, Repr

/-- The children started so far; the process handle of each run (`RunningInstance.Process`);
    the signals `RunningInstance.stop` has sent (run and process id); and whether an
    unrecovered panic has ended the server. -/
structure Processes where
  procs : List Proc
  handles : AList (fun _ : Int => Nat)
  signals : List (Int × Nat)
  crashed : Bool

/-- No process has been started. -/
def Processes.init : Processes where
  procs := []
  handles := ∅
  signals := []
  crashed := false

/-! ## The whole state -/

/-- The state that the requests and the runs share. -/
structure State where
  clock : Time
  db : Database
  sched : Scheduler
  os : Processes

/-- The master when it opens the database `db`, before `Manager.Start`. -/
def State.boot (db : Database) (now : Time) : State := ⟨now, db, .init, .init⟩

/-- What the program takes from outside the repository: the schedule grammars of
    `CheckTaskSchedule` and of `cron.New()`, whether the JavaScript check accepts a text,
    whether a password fits a stored hash (`CheckPassword`), name resolution, the text
    `cmd.String()` gives a command, `core.Version`, and the configuration. -/
structure Externals where
  parseSchedule : String → Bool
  cronParse : String → Bool
  acceptsScript : String → Bool
  checkPassword : String → String → Bool
  resolveIPAddr : String → Except String Unit
  cmdString : String → List String → String
  version : String
  windows : Bool
  scriptFolder : String
  httpHost : String
  httpPost : String

end Gonitor.Server
