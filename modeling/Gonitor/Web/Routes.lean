import Gonitor.Web.Middleware

/-!
# Routes

`router.Group`, `group.Group` and `group.Registered` of `package routes`, and the routes of
`config`.  The callback of a group is the list of the calls it makes on its group; every group
hands its path and its middlewares down to what is registered in it.
-/

namespace Gonitor.Web

/-! ## Groups -/

/-- The methods a route can be registered for. -/
inductive Method
  | GET
  | POST
  | PUT
  | DELETE
  | ANY
  deriving DecidableEq, Repr

/-- A piece of a URL between slashes: a text, or a parameter (`:task_id`). -/
inductive Segment
  | static (text : String)
  | param (name : String)
  deriving DecidableEq, Repr

/-- The names of the parameters of a URL, in their order. -/
def paramNames (url : List Segment) : List String :=
  url.filterMap fun
    | .static _ => none
    | .param name => some name

/-- A call on a group. -/
inductive Call (A : Type)
  | registered (method : Method) (url : List Segment) (action : A) (middlewares : List Middleware := [])
  | group (path : List Segment) (callback : List (Call A)) (middlewares : List Middleware := [])

/-- What `Registered` hands to the engine: the handlers are the middlewares and then the action. -/
structure Route (A : Type) where
  method : Method
  url : List Segment
  middlewares : List Middleware
  action : A
  deriving DecidableEq

/-- `type group` -/
structure Group where
  path : List Segment
  middlewares : List Middleware

mutual

/-- `group.Registered` and `group.Group` -/
def Group.call {A : Type} (g : Group) : Call A → List (Route A)
  | .registered method url action middlewares =>
    [⟨method, g.path ++ url, g.middlewares ++ middlewares, action⟩]
  | .group path callback middlewares =>
    Group.calls ⟨g.path ++ path, g.middlewares ++ middlewares⟩ callback

/-- The calls of a callback, one after another. -/
def Group.calls {A : Type} (g : Group) : List (Call A) → List (Route A)
  | [] => []
  | call :: rest => g.call call ++ g.calls rest

end

mutual

/-- What a call on a group registers, at any depth, has all the middlewares of the group, in
    front of its own. -/
theorem Group.call_middlewares {A : Type} {route : Route A} (g : Group) (call : Call A)
    (h : route ∈ g.call call) : g.middlewares <+: route.middlewares := by
  cases call with
  | registered method url action middlewares =>
    rw [Group.call, List.mem_singleton] at h
    subst h
    exact List.prefix_append _ _
  | group path callback middlewares =>
    rw [Group.call] at h
    have hinner := Group.calls_middlewares _ callback h
    exact (List.prefix_append _ _).trans hinner

/-- The same for the calls of a callback. -/
theorem Group.calls_middlewares {A : Type} {route : Route A} (g : Group) (calls : List (Call A))
    (h : route ∈ g.calls calls) : g.middlewares <+: route.middlewares := by
  cases calls with
  | nil =>
    rw [Group.calls] at h
    cases h
  | cons call rest =>
    rw [Group.calls, List.mem_append] at h
    rcases h with hcall | hrest
    · exact Group.call_middlewares g call hcall
    · exact Group.calls_middlewares g rest hrest

end

/-! ## The routes of the server -/

/-- The actions of `package controller`. -/
inductive Action
  | getSystemOverview | getCpuInfo | getMemoryInfo | getDiskInfo | getNetInfo | getSystemSettings
  | addTask | editTask | deleteTask | getTaskInfo | getTaskList | stopTask | startTask
  | startOnceTask | exportTasks | importTasks
  | getTaskRunningList | getTaskLogList | getTaskLogExecOutput
  | getNodeList | getNodeSelectList | getNodeInfo | addNode | editNode | deleteNode
  | regenerateNodeKey | getNodeTaskCount | deployNode | deployNewNode | testSSHConnection
  | agentHeartbeat | agentGetTasks | agentReportTaskResult | agentCheckUpdate | agentReportEvents
  | userLogin | getUserList | addUser | getSelfInfo | getUserInfo | editUser | deleteUser
  | getOperationLogList | testPush | getVersionInfo | healthCheck | readyCheck
  | getPrometheusMetrics
  deriving DecidableEq, Repr

open Call Method Segment Web.Action in
/-- `config` -/
def config : List (Call Action) := [
  group [static "system"] [
    registered GET [static "overview"] getSystemOverview,
    registered GET [static "cpu"] getCpuInfo,
    registered GET [static "memory"] getMemoryInfo,
    registered GET [static "disk"] getDiskInfo,
    registered GET [static "net"] getNetInfo,
    registered GET [static "settings"] getSystemSettings
  ] [.checkToken],
  group [static "task"] [
    registered POST [] addTask,
    registered PUT [param "task_id"] editTask,
    registered DELETE [param "task_id"] deleteTask,
    registered GET [static "info", param "task_id"] getTaskInfo,
    registered GET [static "list"] getTaskList,
    registered GET [static "stop", param "task_id"] stopTask,
    registered GET [static "start", param "task_id"] startTask,
    registered GET [static "test", param "task_id"] startOnceTask,
    registered GET [static "export"] exportTasks,
    registered POST [static "import"] importTasks,
    group [static "log"] [
      registered GET [static "list", static "running", param "task_id"] getTaskRunningList,
      registered GET [static "list", param "task_id", param "page_number", param "page_size"]
        getTaskLogList,
      registered GET [static "output", param "log_id"] getTaskLogExecOutput
    ]
  ] [.checkToken],
  group [static "node"] [
    registered GET [static "list"] getNodeList,
    registered GET [static "select"] getNodeSelectList,
    registered GET [static "info", param "node_id"] getNodeInfo,
    registered POST [] addNode,
    registered PUT [param "node_id"] editNode,
    registered DELETE [param "node_id"] deleteNode,
    registered GET [static "regenerate", param "node_id"] regenerateNodeKey,
    registered GET [static "taskCount", param "node_id"] getNodeTaskCount,
    registered POST [static "deploy"] deployNode,
    registered POST [static "deploy", static "new"] deployNewNode,
    registered POST [static "deploy", static "test"] testSSHConnection
  ] [.checkToken],
  group [static "agent"] [
    registered POST [static "heartbeat"] agentHeartbeat,
    registered GET [static "tasks"] agentGetTasks,
    registered POST [static "report"] agentReportTaskResult,
    registered GET [static "check-update"] agentCheckUpdate,
    registered POST [static "events"] agentReportEvents
  ],
  group [static "user"] [
    registered POST [static "login"] userLogin,
    group [] [
      registered GET [static "list", param "page_number", param "page_size"] getUserList,
      registered POST [] addUser,
      registered GET [static "selfInfo"] getSelfInfo,
      registered GET [param "user_id"] getUserInfo,
      registered PUT [param "user_id"] editUser,
      registered DELETE [param "user_id"] deleteUser
    ] [.checkToken]
  ],
  group [static "op"] [
    registered GET [static "list", param "page_number", param "page_size"] getOperationLogList
  ] [.checkToken],
  group [static "push"] [
    registered GET [static "test"] testPush
  ],
  registered GET [static "version"] getVersionInfo,
  registered GET [static "healthz"] healthCheck,
  registered GET [static "readyz"] readyCheck,
  registered GET [static "metrics"] getPrometheusMetrics [.checkToken]
]

/-- The group of `Load`, with `kernel.Middleware`. -/
def rootGroup : Group := ⟨[], [.exception, .cors]⟩

/-- `Load`: the routes of the server. -/
def routes : List (Route Action) := rootGroup.calls config

/-- No parameter of a URL hides the one that `CheckToken` adds. -/
theorem routes_params {route : Route Action} (h : route ∈ routes) :
    "current_user_id" ∉ paramNames route.url := by
  revert route
  decide

end Gonitor.Web
