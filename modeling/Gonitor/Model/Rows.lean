import Gonitor.Framework.SoftDeleteTable

/-!
# The Rows of the Database

The structures of `model/`, column by column.  Columns of type `int8` and `int` are
fixed-width here as in the source; row ids are plain integers, since nothing is computed
with them.  Time is counted in nanoseconds from the zero `time.Time`.

`task_log.output` (the name of the log file) is left out: no modelled function reads the
file.
-/

namespace Gonitor.Model

open SoftDelete

/-- An instant, in nanoseconds since the zero `time.Time`. -/
abbrev Time := Int

/-- `model.Base` -/
abbrev Base := Stamps Time

/-- The stamps of a row that has not been stored. -/
def Base.zero : Base := ⟨0, 0, 0, none⟩

/-! ## Tasks -/

/-- `model.Task` -/
structure Task extends Stamps Time where
  name : String := ""
  description : String := ""
  command : String := ""
  schedule : String := ""
  execType : String := ""
  isDisable : Bool := false
  priority : Int8 := 0
  tags : String := ""
  execStrategy : Int8 := 0
  retryTimes : Int8 := 0
  retryInterval : Int64 := 0
  timeout : Int64 := 0
  dependsOnTaskID : Int := 0
  assert : String := ""
  resultHandler : String := ""
  nodeID : Int := 0
  deriving DecidableEq

instance : Row Task Time where
  stamps := Task.toStamps
  setStamps r s := { r with toStamps := s }
  stamps_setStamps _ _ := rfl

/-- The row that `Create` stores for `t` before the key and the stamps are set: a
    zero-valued field whose column tag declares a default is left out of the `INSERT`, so
    the default is stored (`priority` is the only column whose default is not zero). -/
def Task.withDefaults (t : Task) : Task :=
  { t with priority := if t.priority = 0 then 1 else t.priority }

/-- A task without its key and its time stamps: the sixteen configuration columns. -/
def Task.configuration (t : Task) : Task := { t with toStamps := Base.zero }

@[simp] theorem rowId_task (t : Task) : rowId t = t.id := rfl

@[simp] theorem configuration_saved (t : Task) (now : Time) :
    (Table.saved t now).configuration = t.configuration := rfl

@[simp] theorem configuration_markDeleted (now : Time) (t : Task) :
    (markDeleted now t).configuration = t.configuration := rfl

@[simp] theorem nodeID_saved (t : Task) (now : Time) :
    (Table.saved t now).nodeID = t.nodeID := rfl

/-- Rows of equal configuration agree in every column but the key and the stamps. -/
theorem Task.eq_of_configuration {t t' : Task} (h : t.configuration = t'.configuration) :
    t' = { t with toStamps := t'.toStamps } := by
  cases t
  cases t'
  simp only [Task.configuration, Task.mk.injEq] at h
  simp_all

/-! ## Nodes -/

/-- `model.Node` -/
structure Node extends Stamps Time where
  name : String := ""
  region : String := ""
  address : String := ""
  secretKey : String := ""
  status : Int8 := 0
  isMaster : Bool := false
  remark : String := ""
  ip : String := ""
  os : String := ""
  arch : String := ""
  cpuCores : Int64 := 0
  memoryTotal : UInt64 := 0
  goVersion : String := ""
  agentVersion : String := ""
  lastPingAt : Option Time := none
  deriving DecidableEq

instance : Row Node Time where
  stamps := Node.toStamps
  setStamps r s := { r with toStamps := s }
  stamps_setStamps _ _ := rfl

/-! ## Execution logs -/

/-- `model.TaskLog` -/
structure TaskLog extends Stamps Time where
  taskId : Int
  command : String := ""
  status : Bool := false
  execType : String := ""
  processId : Nat := 0
  execTime : Time := 0
  runningTime : Int := 0
  retryTimes : Int8 := 0
  execResult : Bool := false
  deriving DecidableEq

instance : Row TaskLog Time where
  stamps := TaskLog.toStamps
  setStamps r s := { r with toStamps := s }
  stamps_setStamps _ _ := rfl

/-! ## Events of the agents -/

/-- `model.NodeEvent` -/
structure NodeEvent extends Stamps Time where
  nodeID : Int
  eventType : String := ""
  message : String := ""
  eventTime : Time
  synced : Bool := false
  deriving DecidableEq

instance : Row NodeEvent Time where
  stamps := NodeEvent.toStamps
  setStamps r s := { r with toStamps := s }
  stamps_setStamps _ _ := rfl

/-! ## Users, their tokens, and the audit log -/

/-- `model.User` -/
structure User extends Stamps Time where
  username : String := ""
  loginAccount : String := ""
  password : String := ""
  avatar : String := ""
  deriving DecidableEq

instance : Row User Time where
  stamps := User.toStamps
  setStamps r s := { r with toStamps := s }
  stamps_setStamps _ _ := rfl

/-- `model.UserToken` -/
structure UserToken extends Stamps Time where
  userID : Int
  token : String
  expiredAt : Time
  deriving DecidableEq

instance : Row UserToken Time where
  stamps := UserToken.toStamps
  setStamps r s := { r with toStamps := s }
  stamps_setStamps _ _ := rfl

/-- `model.OperationLog` -/
structure OperationLog extends Stamps Time where
  username : String
  userId : Int
  targetId : Int
  opType : String
  remark : String
  deriving DecidableEq

instance : Row OperationLog Time where
  stamps := OperationLog.toStamps
  setStamps r s := { r with toStamps := s }
  stamps_setStamps _ _ := rfl

end Gonitor.Model
