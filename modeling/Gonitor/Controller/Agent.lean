import Gonitor.Controller.Response
import Gonitor.Framework.DateTimeText

/-!
# The Agent Requests

The handlers of `controller/agent.go` that the agents call.  An agent is known by the key in
its `X-Node-Secret` header and by nothing else; the five handlers begin with the same lookup
(`withNode`).

Dates arrive and leave as the instants they denote; `heartbeatTime`, `parseSince` and
`parseEventTime` are the texts of these instants.  The files that `AgentReportTaskResult` writes are
left out, as are those of local runs.
-/

namespace Gonitor.Controller

open Gonitor.Model Gonitor.Server AtomicProgram

/-! ## Bodies -/

/-- `heartbeatInfo`, as the binding leaves it. -/
structure HeartbeatInfo where
  ip : String := ""
  os : String := ""
  arch : String := ""
  cpuCores : Int64 := 0
  memoryTotal : UInt64 := 0
  goVersion : String := ""
  agentVersion : String := ""
  deriving DecidableEq

/-- `taskResultTpl` -/
structure TaskResult where
  taskID : Int := 0
  execResult : Bool := false
  execOutput : String := ""
  runningTime : Int := 0
  deriving DecidableEq

/-- `eventItem`; `eventTime` is `none` where the text is not a date. -/
structure EventItem where
  eventType : String := ""
  message : String := ""
  eventTime : Option Time := none
  deriving DecidableEq

/-! ## Instants as text -/

/-- The `time` in the answer to a heartbeat, on a server whose zone is `offset` seconds east. -/
def heartbeatTime (offset : Int) (now : Time) : String :=
  String.ofList (DateTimeText.format offset now)

/-- What `AgentGetTasks` makes of `since`; a text that cannot be parsed is not looked at. -/
def parseSince (sinceStr : String) : Option Time :=
  if sinceStr = "" then none else DateTimeText.parse sinceStr.toList

/-- What `AgentReportEvents` makes of the `event_time` of an event. -/
def parseEventTime (eventTime : String) : Option Time := DateTimeText.parse eventTime.toList

/-! ## The node of a request -/

/-- The first lines of every agent request: who is calling? -/
def withNode (secretKey : String) (answer : Node → Program Reply) : Program Reply :=
  if secretKey = "" then
    pure (.response (error ErrorCode.PARSE_PARAMS_ERROR "missing secret key"))
  else do
    match ← findNodeWithKey secretKey with
    | .error _ => pure (.response (error ErrorCode.NOT_FOUND "invalid secret key"))
    | .ok nodeModel => answer nodeModel

/-! ## Handlers -/

/-- The node row after a heartbeat. -/
def HeartbeatInfo.apply (info : HeartbeatInfo) (now : Time) (nodeModel : Node) : Node :=
  { nodeModel with
    status := 1
    lastPingAt := some now
    ip := if info.ip ≠ "" then info.ip else nodeModel.ip
    os := if info.os ≠ "" then info.os else nodeModel.os
    arch := if info.arch ≠ "" then info.arch else nodeModel.arch
    cpuCores := if info.cpuCores > 0 then info.cpuCores else nodeModel.cpuCores
    memoryTotal := if info.memoryTotal > 0 then info.memoryTotal else nodeModel.memoryTotal
    goVersion := if info.goVersion ≠ "" then info.goVersion else nodeModel.goVersion
    agentVersion := if info.agentVersion ≠ "" then info.agentVersion else nodeModel.agentVersion }

/-- `AgentHeartbeat`; a failing save goes unnoticed. -/
def agentHeartbeat (secretKey : String) (info : HeartbeatInfo) : Program Reply :=
  withNode secretKey fun nodeModel => do
    let instant ← now
    let _ ← saveNode (info.apply instant nodeModel)
    pure (.response (success "heartbeat ok" (.heartbeat nodeModel.id nodeModel.name instant)))

/-- `AgentGetTasks` -/
def agentGetTasks (secretKey : String) (since : Option Time) : Program Reply :=
  withNode secretKey fun nodeModel => do
    let taskList ← nodeTasks nodeModel.id since
    pure (.response (success "success" (.tasks taskList)))

/-- The log row of a reported result, as it is inserted. -/
def reportedLog (result : TaskResult) (t : Task) (execTime : Time) : TaskLog where
  toStamps := Base.zero
  taskId := result.taskID
  command := t.command
  status := false
  execType := t.execType
  execTime := execTime
  runningTime := result.runningTime
  execResult := result.execResult

/-- `AgentReportTaskResult`; a failing insert goes unnoticed. -/
def agentReportTaskResult (secretKey : String) (body : Except String TaskResult) :
    Program Reply :=
  withNode secretKey fun nodeModel =>
    match body with
    | .error err => pure (.response (error ErrorCode.PARSE_PARAMS_ERROR ("parse fail:" ++ err)))
    | .ok resultInfo => do
      match ← findNodeTask resultInfo.taskID nodeModel.id with
      | .error _ =>
        pure (.response
          (error ErrorCode.NOT_FOUND "task not found or not assigned to this node"))
      | .ok taskModel => do
        -- the time of the run is the time of the report
        let execTime ← now
        let _ ← createReportLog (reportedLog resultInfo taskModel execTime)
        pure (.response (success "report success" .nil))

/-- `strings.TrimPrefix(version, "v")` -/
def trimV (version : String) : String :=
  match version.toList with
  | 'v' :: rest => String.ofList rest
  | _ => version

/-- Does `AgentCheckUpdate` ask the agent to update? -/
def needUpdate (latestVersion currentVersion : String) : Bool :=
  trimV currentVersion != "" && trimV currentVersion != trimV latestVersion &&
    latestVersion != "dev"

/-- `AgentCheckUpdate` -/
def agentCheckUpdate (ext : Externals) (secretKey currentVersion : String) : Program Reply :=
  withNode secretKey fun _ =>
    pure (.response (success "success"
      (.update ext.version currentVersion (needUpdate ext.version currentVersion))))

/-- The time of an event: without a date it gets the time of its arrival. -/
def EventItem.time (evt : EventItem) : Program Time :=
  match evt.eventTime with
  | some instant => pure instant
  | none => now

/-- The loop of `AgentReportEvents`; a failing insert goes unnoticed. -/
def createEvents (nodeID : Int) : List EventItem → Program Unit
  | [] => pure ()
  | evt :: events => do
    let eventTime ← evt.time
    -- `synced++` follows, whether the row has been stored or not
    let _ ← createNodeEvent
      { toStamps := Base.zero, nodeID := nodeID, eventType := evt.eventType,
        message := evt.message, eventTime := eventTime, synced := true }
    createEvents nodeID events

/-- `AgentReportEvents` -/
def agentReportEvents (secretKey : String) (body : Except String (List EventItem)) :
    Program Reply :=
  withNode secretKey fun nodeModel =>
    match body with
    | .error err => pure (.response (error ErrorCode.PARSE_PARAMS_ERROR ("parse fail:" ++ err)))
    | .ok events => do
      createEvents nodeModel.id events
      pure (.response (success "events synced" (.synced events.length)))

end Gonitor.Controller
