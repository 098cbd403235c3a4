import Gonitor.Task.Manager
import Gonitor.Task.Running

/-!
# Requests and Responses

What the handlers of `package controller` receive and answer: the JSON bodies, the data of
a response, the error codes, and the audit entry most handlers write before they answer.

A body arrives as the outcome of `ShouldBindJSON`: the bound structure, or the text of the
binding error.  The ids in paths arrive as the integers they denote.
-/

namespace Gonitor.Controller

open Gonitor.Model Gonitor.Server AtomicProgram

/-! ## Bodies -/

/-- `taskMutationPayload` -/
structure TaskMutationPayload where
  name : String := ""
  description : String := ""
  execType : String := ""
  command : String := ""
  schedule : String := ""
  isDisable : Bool := false
  priority : Int8 := 0
  tags : String := ""
  execStrategy : Int8 := 0
  retryTimes : Int8 := 0
  retryInterval : Int64 := 0
  timeout : Int64 := 0
  dependsOnTaskID : Int := 0
  assert : String := ""
  resultHandler : String := ""
  nodeID : Int := 0
  deriving DecidableEq

/-- `taskTransferItem`: the fields of a payload and the id the task had when exported. -/
structure TaskTransferItem extends TaskMutationPayload where
  id : Int := 0
  deriving DecidableEq

/-- The forms of `AddNode` and of `EditNode`. -/
structure NodeForm where
  name : String := ""
  region : String := ""
  address : String := ""
  remark : String := ""
  deriving DecidableEq

/-- The fields that `DeployNode`'s form and `DeployNewNode`'s form share. -/
structure SSHForm where
  sshHost : String := ""
  sshPort : Int64 := 0
  sshUser : String := ""
  sshPass : String := ""
  installPath : String := ""
  deriving DecidableEq

/-- The form of `DeployNode`. -/
structure DeployForm extends SSHForm where
  nodeID : Int := 0
  deriving DecidableEq

/-- The form of `DeployNewNode`. -/
structure DeployNewForm extends SSHForm where
  name : String := ""
  region : String := ""
  remark : String := ""
  deriving DecidableEq

/-! ## Responses -/

/-- One step of `executeDeployCommands`: its description, the output of its command and, if
    the command failed, the error. -/
structure DeployStep where
  desc : String
  output : String
  err : Option String
  deriving DecidableEq

/-- What `DeployNode` and `DeployNewNode` report. -/
structure DeployReport where
  node : Node
  sysInfo : List (String × String)
  deployLog : List DeployStep
  status : String
  error : Option String := none
  deriving DecidableEq

/-- The `data` of a response. -/
inductive Data
  | nil
  | payload (p : TaskMutationPayload)
  | task (t : Task)
  | node (n : Node)
  | output (text : String)
  | imported (tasks : List TaskTransferItem)
  | deployed (report : DeployReport)
  | emptyObject
  | token (text : String)
  | tasks (list : List Task)
  | heartbeat (nodeId : Int) (nodeName : String) (time : Time)
  | update (latestVersion currentVersion : String) (needUpdate : Bool)
  | synced (count : Nat)
  deriving DecidableEq

/-- The JSON object of `Response.Success` and `Response.Error`. -/
structure Response where
  code : Int
  message : String
  data : Data
  deriving DecidableEq

/-- `Response.Success` -/
def success (message : String) (data : Data) : Response := ⟨0, message, data⟩

/-- `Response.Error`, for the callers that pass no data. -/
def error (code : Int) (message : String) : Response := ⟨code, message, .nil⟩

/-- Did the request succeed? -/
def Response.isSuccess (r : Response) : Bool := r.code == 0

namespace ErrorCode

def TOKEN_EXPIRED : Int := 100001
def NOT_FOUND : Int := 500001
def PARSE_PARAMS_ERROR : Int := 500002
def DB_ERROR : Int := 500003

end ErrorCode

/-- How a thread of the server ends: a job has no answer, and the answer of a handler that
    panics comes from the exception middleware. -/
inductive Reply
  | done
  | response (r : Response)
  | panicked
  deriving DecidableEq

/-! ## The audit log -/

/-- What the handlers read of the connection: `getCurrentUserId` and `ClientIP`. -/
structure Caller where
  userId : Int
  clientIP : String

/-- `OperationLog.AddOperationLog`; every caller drops its error. -/
def addOperationLog (userId targetId : Int) (opType remark : String) : Program Unit := do
  match ← userInfo userId with
  | .error _ => pure ()
  | .ok info => do
    let _ ← createOperationLog ⟨Base.zero, info.username, userId, targetId, opType, remark⟩
    pure ()

/-- The audit entry of a request about a task. -/
def logTaskOperation (caller : Caller) (t : Task) (opType : String) : Program Unit :=
  addOperationLog caller.userId t.id opType
    ("Task:" ++ t.name ++ "\nClient Ip:" ++ caller.clientIP)

/-- The audit entry of `EditNode` and `DeleteNode`. -/
def logNodeOperation (caller : Caller) (n : Node) (opType : String) : Program Unit :=
  addOperationLog caller.userId n.id opType
    ("Node:" ++ n.name ++ "\nClient Ip:" ++ caller.clientIP)

end Gonitor.Controller
