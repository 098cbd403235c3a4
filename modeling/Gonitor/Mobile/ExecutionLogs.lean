import Gonitor.Mobile.AppController
import Gonitor.Model.LogJson

/-!
# Execution Logs on the Mobile Client

`TaskExecutionLog.fromJson` reads the logs of a task.  It looks for a status that is a number, for names
that none of the two lists has, and for the time of the execution under the name that only one of them
has; what it does not find it takes for a run that has failed, without a time.

## Main Results

- `fromJson_of_ended`, `fromJson_of_running`: what is made of the two kinds of logs.
- `log_decoded_iff`: a log of the first kind is read right if and only if its run has failed, one of the
  second kind never.
- `successful_run_shown_as_failed`: a run that has ended well.
-/

namespace Gonitor.Mobile

open Json Gonitor.Model DateTimeText

/-! ## Lenient conversions -/

def asMap : Value → List (String × Value)
  | .map fields => fields
  | _ => []

def asList : Value → List Value
  | .list items => items
  | _ => []

mutual

/-- `toString` -/
def text : Value → String
  | .null => "null"
  | .bool b => if b then "true" else "false"
  | .int n => toString n
  | .str s => s
  | .list items => "[" ++ String.intercalate ", " (texts items) ++ "]"
  | .map fields => "\x7b" ++ String.intercalate ", " (fieldTexts fields) ++ "\x7d"

def texts : List Value → List String
  | [] => []
  | item :: items => text item :: texts items

def fieldTexts : List (String × Value) → List String
  | [] => []
  | (name, value) :: fields => (name ++ ": " ++ text value) :: fieldTexts fields

end

/-- `value?.toString()` -/
def textOf : Value → Option String
  | .null => none
  | value => some (text value)

/-- The value of a digit. -/
def digitValue (c : Char) : Option Nat :=
  if c.isDigit then some (c.toNat - '0'.toNat)
  else if 'a' ≤ c ∧ c ≤ 'z' then some (c.toNat - 'a'.toNat + 10)
  else if 'A' ≤ c ∧ c ≤ 'Z' then some (c.toNat - 'A'.toNat + 10)
  else none

/-- A number of at least one digit. -/
def ofDigits (radix : Nat) (digits : List Char) : Option Nat :=
  if digits = [] then none
  else digits.foldlM (fun n c => do
    let d ← digitValue c
    if d < radix then some (radix * n + d) else none) 0

/-- An integer of 64 bits; one without a sign in base 16 may use them all. -/
def toInt64 (allowU64 negative : Bool) (n : Nat) : Option Int :=
  let value : Int := if negative then -n else n
  if -2 ^ 63 ≤ value ∧ value < 2 ^ 63 then some value
  else if allowU64 ∧ n < 2 ^ 64 then some (n - 2 ^ 64)
  else none

/-- The digits of a number, after its sign. -/
def parseUnsigned (negative : Bool) : List Char → Option Int
  | '0' :: 'x' :: digits | '0' :: 'X' :: digits =>
    (ofDigits 16 digits).bind (toInt64 (!negative) negative)
  | digits => (ofDigits 10 digits).bind (toInt64 false negative)

/-- `int.tryParse` -/
def tryParse (source : String) : Option Int :=
  match trim source.toList with
  | '-' :: digits => parseUnsigned true digits
  | '+' :: digits => parseUnsigned false digits
  | digits => parseUnsigned false digits

def asInt : Value → Int
  | .int n => n
  | value => (tryParse ((textOf value).getD "")).getD 0

/-! ## The decoder -/

structure TaskExecutionLog where
  title : String
  success : Bool
  statusLabel : String
  execTime : String
  duration : String
  output : String
  deriving DecidableEq

/-- `json['is_success'] == true` -/
def isTrue : Value → Bool
  | .bool b => b
  | _ => false

/-- `TaskExecutionLog.fromJson` -/
def TaskExecutionLog.fromJson (json : List (String × Value)) (fallbackTitle : String) :
    TaskExecutionLog :=
  let status := asInt (Value.get "status" json)
  { title := (textOf (Value.get "title" json)).getD
      ((textOf (Value.get "task_name" json)).getD fallbackTitle)
    success := status == 1 || isTrue (Value.get "is_success" json)
    statusLabel := if status = 1 then "成功" else if status = 2 then "运行中" else "失败"
    execTime := (textOf (Value.get "exec_time" json)).getD ""
    duration := (textOf (Value.get "duration" json)).getD ""
    output := (textOf (Value.get "exec_output" json)).getD "" }

/-- The logs that `getTaskDetail` reads from the list of the runs in progress. -/
def runningLogs (json : Value) : List TaskExecutionLog :=
  (asList json).map fun item => .fromJson (asMap item) "运行中实例"

/-- The logs that it reads from a page of those that have ended. -/
def endedLogs (json : Value) : List TaskExecutionLog :=
  (asList (Value.get "list" (asMap json))).map fun item => .fromJson (asMap item) "结束实例"

/-! ## What is read -/

/-- A truth value is no number. -/
theorem asInt_bool (b : Bool) : asInt (.bool b) = 0 := by
  cases b with
  | false => decide
  | true => decide

/-- The names that are looked for and that neither list has. -/
def missingNames : List String := ["title", "task_name", "is_success", "duration"]

/-- What is made of a status that is a truth value. -/
theorem fromJson_of_bool {json : List (String × Value)} {b : Bool} (fallbackTitle : String)
    (hstatus : Value.get "status" json = .bool b)
    (hmissing : ∀ name ∈ missingNames, name ∉ json.map Prod.fst) :
    TaskExecutionLog.fromJson json fallbackTitle =
      { title := fallbackTitle
        success := false
        statusLabel := "失败"
        execTime := (textOf (Value.get "exec_time" json)).getD ""
        duration := ""
        output := (textOf (Value.get "exec_output" json)).getD "" } := by
  have hnull (name : String) (hname : name ∈ missingNames) : Value.get name json = .null :=
    Value.get_eq_null (hmissing name hname)
  simp only [TaskExecutionLog.fromJson, hstatus, asInt_bool, hnull "title" (by decide),
    hnull "task_name" (by decide), hnull "is_success" (by decide), hnull "duration" (by decide)]
  rfl

/-! ### Runs that have ended -/

theorem timeJson_cases {offset : Int} {t : Time} {json : Value} (h : timeJson offset t = some json) :
    json = .str (String.ofList (rfc3339Nano offset t)) := by
  simp only [timeJson] at h
  split at h
  · exact (Option.some.inj h).symm
  · cases h

/-- The fields of a row that has been written. -/
theorem taskLogJson_cases {offset : Int} {outputFile : String} {row : TaskLog} {json : Value}
    (h : taskLogJson offset outputFile row = some json) : ∃ createdAt updatedAt deletedAt,
    json = .map (taskLogFields createdAt updatedAt deletedAt
      (.str (String.ofList (rfc3339Nano offset row.execTime))) outputFile row) := by
  simp only [taskLogJson, Option.bind_eq_bind, Option.bind_eq_some_iff] at h
  obtain ⟨createdAt, -, updatedAt, -, deletedAt, -, execTime, hexec, hjson⟩ := h
  obtain rfl := timeJson_cases hexec
  exact ⟨createdAt, updatedAt, deletedAt, (Option.some.inj hjson).symm⟩

/-- What a tag of a row stands for. -/
theorem get_taskLogFields {createdAt updatedAt deletedAt execTime : Value} {outputFile : String}
    {row : TaskLog} {name : String} {value : Value}
    (h : (name, value) ∈ taskLogFields createdAt updatedAt deletedAt execTime outputFile row) :
    Value.get name (taskLogFields createdAt updatedAt deletedAt execTime outputFile row) = value := by
  apply Value.get_eq_of_mem _ h
  rw [map_fst_taskLogFields]
  decide

/-- What is shown for a run that has ended. -/
def endedLog (offset : Int) (row : TaskLog) (title : String) : TaskExecutionLog where
  title := title
  success := false
  statusLabel := "失败"
  execTime := String.ofList (rfc3339Nano offset row.execTime)
  duration := ""
  output := ""

/-- **A run that has ended** is read as one that has failed. -/
theorem fromJson_of_ended {offset : Int} {outputFile : String} {row : TaskLog} {json : Value}
    (fallbackTitle : String) (h : taskLogJson offset outputFile row = some json) :
    TaskExecutionLog.fromJson (asMap json) fallbackTitle = endedLog offset row fallbackTitle := by
  obtain ⟨createdAt, updatedAt, deletedAt, rfl⟩ := taskLogJson_cases h
  rw [asMap, fromJson_of_bool (b := row.status) fallbackTitle]
  case hstatus => exact get_taskLogFields (by simp [taskLogFields])
  case hmissing =>
    rw [map_fst_taskLogFields]
    decide
  have htime : Value.get "exec_time" (taskLogFields createdAt updatedAt deletedAt
      (.str (String.ofList (rfc3339Nano offset row.execTime))) outputFile row) =
      .str (String.ofList (rfc3339Nano offset row.execTime)) :=
    get_taskLogFields (by simp [taskLogFields])
  have houtput : Value.get "exec_output" (taskLogFields createdAt updatedAt deletedAt
      (.str (String.ofList (rfc3339Nano offset row.execTime))) outputFile row) = .null := by
    apply Value.get_eq_null
    rw [map_fst_taskLogFields]
    decide
  rw [htime, houtput]
  rfl

theorem map_fromJson_of_mapM {offset : Int} {outputFile : TaskLog → String} {rows : List TaskLog}
    {items : List Value} (fallbackTitle : String)
    (h : rows.mapM (fun row => taskLogJson offset (outputFile row) row) = some items) :
    (items.map fun item => TaskExecutionLog.fromJson (asMap item) fallbackTitle) =
      rows.map fun row => endedLog offset row fallbackTitle := by
  induction rows generalizing items with
  | nil =>
    obtain rfl : [] = items := by simpa using h
    rfl
  | cons row rows ih =>
    simp only [List.mapM_cons, Option.bind_eq_bind, Option.bind_eq_some_iff] at h
    obtain ⟨item, hitem, rest, hrest, hitems⟩ := h
    obtain rfl := Option.some.inj hitems
    rw [List.map_cons, List.map_cons, fromJson_of_ended _ hitem, ih hrest]

/-- So all of a page are. -/
theorem endedLogs_listingJson {offset machine : Int} {outputFile : TaskLog → String} {p : Pagination}
    {listing : Listing TaskLog} {json : Value}
    (h : listingJson offset machine outputFile p listing = some json) :
    endedLogs json = listing.rows.map fun row => endedLog offset row "结束实例" := by
  simp only [listingJson, Option.bind_eq_bind, Option.bind_eq_some_iff] at h
  obtain ⟨rows, hrows, hjson⟩ := h
  obtain rfl := Option.some.inj hjson
  exact map_fromJson_of_mapM _ hrows

/-! ### Runs in progress -/

/-- What a tag of a `TaskLogInfo` stands for. -/
theorem get_fields {info : TaskLogInfo} {name : String} {value : Value}
    (h : (name, value) ∈ info.fields) : Value.get name info.fields = value := by
  apply Value.get_eq_of_mem _ h
  rw [TaskLogInfo.map_fst_fields]
  decide

/-- What is shown for a run that is in progress. -/
def runningLog (info : TaskLogInfo) (title : String) : TaskExecutionLog where
  title := title
  success := false
  statusLabel := "失败"
  execTime := ""
  duration := ""
  output := info.execOutput

/-- **A run in progress** is read as one that has failed, without the time of its execution. -/
theorem fromJson_of_running (info : TaskLogInfo) (fallbackTitle : String) :
    TaskExecutionLog.fromJson (asMap info.json) fallbackTitle = runningLog info fallbackTitle := by
  rw [TaskLogInfo.json, asMap, fromJson_of_bool (b := info.status) fallbackTitle]
  case hstatus => exact get_fields (by simp [TaskLogInfo.fields])
  case hmissing =>
    rw [TaskLogInfo.map_fst_fields]
    decide
  have htime : Value.get "exec_time" info.fields = .null := by
    apply Value.get_eq_null
    rw [TaskLogInfo.map_fst_fields]
    decide
  have houtput : Value.get "exec_output" info.fields = .str info.execOutput :=
    get_fields (by simp [TaskLogInfo.fields])
  rw [htime, houtput]
  rfl

/-- So all of the list are. -/
theorem runningLogs_runningListJson (offset : Int) (instances : List (TaskLog × String)) :
    runningLogs (runningListJson offset instances) = instances.map fun (taskLogModel, execLog) =>
      runningLog (runningLogInfo offset taskLogModel execLog) "运行中实例" := by
  simp only [runningLogs, runningListJson, asList, List.map_map]
  apply List.map_congr_left
  intro taskRunIns _
  exact fromJson_of_running _ _

/-! ## Which logs are read right -/

/-- The log of a run that has ended is read right. -/
structure EndedRead (row : TaskLog) (log : TaskExecutionLog) : Prop where
  success : log.success = row.execResult
  execTime : log.execTime ≠ ""

/-- The log of a run in progress is read right. -/
structure RunningRead (execLog : String) (log : TaskExecutionLog) : Prop where
  statusLabel : log.statusLabel = "运行中"
  execTime : log.execTime ≠ ""
  output : log.output = execLog

theorem rfc3339Nano_ne_nil (offset : Int) (t : Time) : rfc3339Nano offset t ≠ [] := by
  simp [rfc3339Nano]

/-- **What is read right**: the log of a run that has ended if and only if it has failed, and that of
    a run in progress never. -/
theorem log_decoded_iff {offset : Int} {outputFile : String} {row : TaskLog} {json : Value}
    (execLog : String) (hjson : taskLogJson offset outputFile row = some json) :
    (EndedRead row (.fromJson (asMap json) "结束实例") ↔ row.execResult = false) ∧
      ¬ RunningRead execLog (.fromJson
        (asMap (runningLogInfo offset { row with status := true } execLog).json) "运行中实例") := by
  rw [fromJson_of_ended _ hjson, fromJson_of_running]
  constructor
  · constructor
    · intro h
      exact h.success.symm
    · intro hfailed
      refine ⟨hfailed.symm, ?_⟩
      rw [endedLog]
      intro hempty
      exact rfc3339Nano_ne_nil offset row.execTime (String.ofList_eq_empty_iff.mp hempty)
  · intro h
    exact h.execTime rfl

/-! ## A run that has ended well -/

/-- A run of the task 1 at the first instant, which has ended well. -/
def successfulLog : TaskLog := { toStamps := ⟨1, 0, 0, none⟩, taskId := 1, execResult := true }

/-- The same, with another end. -/
def failedLog : TaskLog := { successfulLog with execResult := false }

theorem taskLogJson_isSome : ∀ row ∈ [successfulLog, failedLog],
    (taskLogJson 0 "1/run.txt" row).isSome = true := by
  decide

/-- The log of the run that has failed is read right. -/
theorem log_decoded_iff_failedLog : ∃ json, taskLogJson 0 "1/run.txt" failedLog = some json ∧
    EndedRead failedLog (.fromJson (asMap json) "结束实例") := by
  obtain ⟨json, hjson⟩ := Option.isSome_iff_exists.mp (taskLogJson_isSome failedLog (by simp))
  exact ⟨json, hjson, (log_decoded_iff "" hjson).1.mpr rfl⟩

/-- The run that has ended well is shown as failed. -/
theorem successful_run_shown_as_failed : ∃ json,
    taskLogJson 0 "1/run.txt" successfulLog = some json ∧
      ¬ EndedRead successfulLog (.fromJson (asMap json) "结束实例") := by
  obtain ⟨json, hjson⟩ := Option.isSome_iff_exists.mp (taskLogJson_isSome successfulLog (by simp))
  refine ⟨json, hjson, fun h => ?_⟩
  have hsuccess := h.success
  rw [fromJson_of_ended _ hjson] at hsuccess
  cases hsuccess

end Gonitor.Mobile
