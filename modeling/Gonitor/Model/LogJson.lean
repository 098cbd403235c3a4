import Gonitor.Framework.DateTimeText
import Gonitor.Framework.Json
import Gonitor.Model.Pagination

/-!
# The Logs of a Task as JSON

What the two lists of the logs of a task answer with: a row of `task_log` as it is for a run that has
ended, and a `TaskLogInfo` for one that is in progress.  Both are written with the tags of their fields.
Instants are written with the offset of the zone of the server, in seconds.
-/

namespace Gonitor.Model

open DateTimeText CivilTime Json

/-! ## Instants -/

/-- The fraction of a second, without zeros at its end. -/
def fractionText (nanoseconds : Nat) : List Char :=
  if nanoseconds = 0 then []
  else '.' :: ((digits 9 nanoseconds).reverse.dropWhile (· == '0')).reverse

/-- `Z07:00` -/
def zoneText (offset : Int) : List Char :=
  if offset = 0 then ['Z']
  else
    let minutes := (offset.tdiv 60).natAbs
    (if offset.tdiv 60 < 0 then '-' else '+') ::
      (digits 2 (minutes / 60) ++ ':' :: digits 2 (minutes % 60))

/-- The layout `RFC3339Nano`. -/
def rfc3339Nano (offset : Int) (t : Time) : List Char :=
  let wall := t + offset * nanos
  let date := civil (wall / nanos / 86400)
  let clock := (wall / nanos % 86400).toNat
  appendInt date.year 4 ++ '-' :: (digits 2 date.month ++ '-' :: (digits 2 date.day ++ 'T' ::
    (digits 2 (clock / 3600) ++ ':' :: (digits 2 (clock % 3600 / 60) ++ ':' ::
      (digits 2 (clock % 60) ++ (fractionText (wall % nanos).toNat ++ zoneText offset))))))

/-- `Time.MarshalJSON`: a year that has not four digits is an error. -/
def timeJson (offset : Int) (t : Time) : Option Value :=
  let year := (civil ((t + offset * nanos) / nanos / 86400)).year
  if 0 ≤ year ∧ year ≤ 9999 then some (.str (String.ofList (rfc3339Nano offset t))) else none

/-! ## Runs that have ended -/

/-- The fields of a row of `task_log`; `outputFile` is the column `output`. -/
def taskLogFields (createdAt updatedAt deletedAt execTime : Value) (outputFile : String)
    (row : TaskLog) : List (String × Value) :=
  [("id", .int row.id),
   ("create_time", createdAt),
   ("update_time", updatedAt),
   ("delete_time", deletedAt),
   ("task_id", .int row.taskId),
   ("command", .str row.command),
   ("status", .bool row.status),
   ("output", .str outputFile),
   ("exec_type", .str row.execType),
   ("process_id", .int row.processId),
   ("exec_time", execTime),
   ("running_time", .int row.runningTime),
   ("retry_times", .int row.retryTimes.toInt),
   ("exec_result", .bool row.execResult)]

def taskLogJson (offset : Int) (outputFile : String) (row : TaskLog) : Option Value := do
  let createdAt ← timeJson offset row.createdAt
  let updatedAt ← timeJson offset row.updatedAt
  let deletedAt ← row.deletedAt.elim (some .null) (timeJson offset)
  let execTime ← timeJson offset row.execTime
  some (.map (taskLogFields createdAt updatedAt deletedAt execTime outputFile row))

/-- The tags of `model.TaskLog` and of `model.Base`. -/
def taskLogNames : List String :=
  ["id", "create_time", "update_time", "delete_time", "task_id", "command", "status", "output",
    "exec_type", "process_id", "exec_time", "running_time", "retry_times", "exec_result"]

theorem map_fst_taskLogFields (createdAt updatedAt deletedAt execTime : Value) (outputFile : String)
    (row : TaskLog) :
    (taskLogFields createdAt updatedAt deletedAt execTime outputFile row).map Prod.fst =
      taskLogNames := rfl

/-- A page of rows; `machine` is the number of pages where the language does not define it. -/
def listingJson (offset machine : Int) (outputFile : TaskLog → String) (p : Pagination)
    (listing : Listing TaskLog) : Option Value := do
  let rows ← listing.rows.mapM fun row => taskLogJson offset (outputFile row) row
  some <| .map
    [("limit", .int p.getLimit.toInt),
     ("page", .int p.getPage.toInt),
     ("sort", .str "id asc"),
     ("total_rows", .int listing.totalRows),
     ("total_pages", .int (listing.totalPages.getD machine)),
     ("list", .list rows)]

/-! ## Runs in progress -/

/-- `subscription.TaskLogInfo` -/
structure TaskLogInfo where
  id : Int
  taskID : Int
  command : String
  processID : Int
  executionTime : String
  status : Bool
  execOutput : String
  deriving DecidableEq

/-- `GetTaskLogInfoStatByLogModel` -/
def getTaskLogInfoStatByLogModel (offset : Int) (taskLogModel : TaskLog) : TaskLogInfo where
  id := taskLogModel.id
  taskID := taskLogModel.taskId
  command := taskLogModel.command
  processID := taskLogModel.processId
  executionTime := String.ofList (format offset taskLogModel.execTime)
  status := taskLogModel.status
  execOutput := ""

def TaskLogInfo.fields (info : TaskLogInfo) : List (String × Value) :=
  [("id", .int info.id),
   ("task_id", .int info.taskID),
   ("command", .str info.command),
   ("process_id", .int info.processID),
   ("execution_time", .str info.executionTime),
   ("status", .bool info.status),
   ("exec_output", .str info.execOutput)]

def TaskLogInfo.json (info : TaskLogInfo) : Value := .map info.fields

/-- The tags of `TaskLogInfo`. -/
def taskLogInfoNames : List String :=
  ["id", "task_id", "command", "process_id", "execution_time", "status", "exec_output"]

theorem TaskLogInfo.map_fst_fields (info : TaskLogInfo) :
    info.fields.map Prod.fst = taskLogInfoNames := rfl

/-- The pass of `GetTaskRunningList` for one instance; `execLog` is what `GenerateExecLog` gives. -/
def runningLogInfo (offset : Int) (taskLogModel : TaskLog) (execLog : String) : TaskLogInfo :=
  { getTaskLogInfoStatByLogModel offset taskLogModel with execOutput := execLog }

/-- `GetTaskRunningList`, for the instances that are in progress. -/
def runningListJson (offset : Int) (instances : List (TaskLog × String)) : Value :=
  .list (instances.map fun (taskLogModel, execLog) =>
    (runningLogInfo offset taskLogModel execLog).json)

end Gonitor.Model
