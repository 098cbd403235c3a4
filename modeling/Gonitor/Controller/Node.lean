import Gonitor.Controller.Response
import Gonitor.Deploy.Commands

/-!
# The Node Requests

The handlers of `controller/node.go` and `controller/deploy.go` that change the node table.
The queries that only list rows and `TestSSHConnection` are left out.
-/

namespace Gonitor.Controller

open Gonitor.Model Gonitor.Server Gonitor.Deploy AtomicProgram

/-! ## Adding, editing and deleting -/

/-- The checks that `AddNode` and `EditNode` make of their form. -/
def nodeFormError (form : NodeForm) : Option String :=
  if form.name.utf8ByteSize = 0 then some "node name is required"
  else if form.name.utf8ByteSize > 255 then some "node name must be less than 255 characters"
  else if form.address.utf8ByteSize = 0 then some "node address is required"
  else none

/-- `AddNode` -/
def addNode (caller : Caller) (body : Except String NodeForm) : Program Reply :=
  match body with
  | .error err => pure (.response (error ErrorCode.PARSE_PARAMS_ERROR ("parse fail:" ++ err)))
  | .ok addInfo =>
    match nodeFormError addInfo with
    | some err => pure (.response (error ErrorCode.PARSE_PARAMS_ERROR err))
    | none => do
      match ← findNodeNamed addInfo.name none with
      | .ok _ => pure (.response (error ErrorCode.PARSE_PARAMS_ERROR "node name already exists"))
      | .error _ => do
        -- any error of the lookup, not only "record not found", counts as a free name
        let secretKey ← randomString 32
        let row : Node :=
          { toStamps := Base.zero, name := addInfo.name, region := addInfo.region,
            address := addInfo.address, secretKey := secretKey, status := 0, isMaster := false,
            remark := addInfo.remark }
        match ← createNode row with
        | .error _ => pure (.response (error ErrorCode.DB_ERROR "create node fail"))
        | .ok nodeModel => do
          addOperationLog caller.userId nodeModel.id "AddNode"
            ("Node:" ++ nodeModel.name ++ "\nRegion:" ++ nodeModel.region ++ "\nClient Ip:" ++
              caller.clientIP)
          pure (.response (success "add success" (.node nodeModel)))

/-- `EditNode` -/
def editNode (caller : Caller) (nodeId : Int) (body : Except String NodeForm) : Program Reply :=
  match body with
  | .error err => pure (.response (error ErrorCode.PARSE_PARAMS_ERROR ("parse fail:" ++ err)))
  | .ok editInfo => do
    match ← findNode .nodeRequest nodeId with
    | .error _ => pure (.response (error ErrorCode.NOT_FOUND "node not found"))
    | .ok nodeModel =>
      if nodeModel.isMaster then
        pure (.response
          (error ErrorCode.PARSE_PARAMS_ERROR "cannot edit master node connection info"))
      else
        match nodeFormError editInfo with
        | some err => pure (.response (error ErrorCode.PARSE_PARAMS_ERROR err))
        | none => do
          match ← findNodeNamed editInfo.name (some nodeId) with
          | .ok _ =>
            pure (.response (error ErrorCode.PARSE_PARAMS_ERROR "node name already exists"))
          | .error _ => do
            let nodeModel := { nodeModel with
              name := editInfo.name, region := editInfo.region, address := editInfo.address,
              remark := editInfo.remark }
            match ← saveNode nodeModel with
            | .error _ => pure (.response (error ErrorCode.DB_ERROR "update node fail"))
            | .ok _ => do
              logNodeOperation caller nodeModel "EditNode"
              pure (.response (success "update success" (.node nodeModel)))

/-- `DeleteNode`; a failing count leaves `taskCount` at 0. -/
def deleteNode (caller : Caller) (nodeId : Int) : Program Reply := do
  match ← findNode .nodeRequest nodeId with
  | .error _ => pure (.response (error ErrorCode.NOT_FOUND "node not found"))
  | .ok nodeModel =>
    if nodeModel.isMaster then
      pure (.response (error ErrorCode.PARSE_PARAMS_ERROR "cannot delete master node"))
    else do
      -- the count and the deletion are two statements: a task can be placed here in between
      let taskCount ← countNodeTasks nodeId
      if taskCount > 0 then
        pure (.response (error ErrorCode.PARSE_PARAMS_ERROR
          "node has associated tasks, please reassign them first"))
      else do
        match ← deleteNodeRow nodeModel.id with
        | .error _ => pure (.response (error ErrorCode.DB_ERROR "delete node fail"))
        | .ok _ => do
          logNodeOperation caller nodeModel "DeleteNode"
          pure (.response (success "delete success" (.node nodeModel)))

/-- `RegenerateNodeKey` -/
def regenerateNodeKey (nodeId : Int) : Program Reply := do
  match ← findNode .nodeRequest nodeId with
  | .error _ => pure (.response (error ErrorCode.NOT_FOUND "node not found"))
  | .ok nodeModel =>
    if nodeModel.isMaster then
      pure (.response (error ErrorCode.PARSE_PARAMS_ERROR "cannot regenerate master node key"))
    else do
      let secretKey ← randomString 32
      let nodeModel := { nodeModel with secretKey := secretKey }
      match ← saveNode nodeModel with
      | .error _ => pure (.response (error ErrorCode.DB_ERROR "update node key fail"))
      | .ok _ =>
        -- the new key is shown, and there is no audit entry
        pure (.response (success "regenerate success" (.node nodeModel)))

/-! ## Deploying -/

/-- `validateSSHHost` -/
def validateSSHHost (ext : Externals) (host : String) : Except String Unit :=
  if host = "" then .error "host is empty" else ext.resolveIPAddr host

/-- The port both deployments use. -/
def deployPort (port : Int64) : Int64 := if port ≤ 0 ∨ port > 65535 then 22 else port

/-- The install path both deployments use, before it is checked. -/
def deployPath (installPath : String) : String :=
  if installPath = "" then "/opt/gonitor" else installPath

/-- `unicode.IsSpace` -/
def isSpace (c : Char) : Bool :=
  c ∈ ['\t', '\n', '\x0b', '\x0c', '\r', ' ', '\u0085', '\u00a0', '\u1680', '\u2028', '\u2029',
    '\u202f', '\u205f', '\u3000'] || ('\u2000' ≤ c && c ≤ '\u200a')

/-- `strings.TrimSpace` -/
def trimSpace (s : String) : String :=
  String.ofList ((s.toList.dropWhile isSpace).reverse.dropWhile isSpace).reverse

/-- The queries of `collectRemoteSystemInfo`. -/
def systemInfoCommands : List (String × String) :=
  [("os", "uname -s 2>/dev/null || echo unknown"),
   ("arch", "uname -m 2>/dev/null || echo unknown"),
   ("hostname", "hostname 2>/dev/null || echo unknown"),
   ("kernel", "uname -r 2>/dev/null || echo unknown"),
   ("cpu_cores", "nproc 2>/dev/null || echo 0"),
   ("memory_total", "free -b 2>/dev/null | awk '/Mem:/\x7bprint $2\x7d' || echo 0"),
   ("ip", "hostname -I 2>/dev/null | awk '\x7bprint $1\x7d' || echo unknown"),
   ("go_version", "go version 2>/dev/null | awk '\x7bprint $3\x7d' || echo not_installed"),
   ("platform", "cat /etc/os-release 2>/dev/null | grep PRETTY_NAME | cut -d= -f2 | " ++
      "tr -d '\"' || echo unknown")]

/-- The loop of `collectRemoteSystemInfo`. -/
def querySystemInfo : List (String × String) → Program (List (String × String))
  | [] => pure []
  | (key, cmd) :: rest => do
    let (output, err) ← runSSHCommand cmd
    let info ← querySystemInfo rest
    pure ((key, if err.isSome then "" else trimSpace output) :: info)

/-- `mapToGoArch`; `uname` answers in ASCII. -/
def mapToGoArch (arch : String) : String :=
  let lower := arch.toLower
  if lower = "x86_64" ∨ lower = "amd64" then "amd64"
  else if lower = "aarch64" ∨ lower = "arm64" then "arm64"
  else if lower = "armv7l" ∨ lower = "armv6l" then "arm"
  else if lower = "i386" ∨ lower = "i686" then "386"
  else arch

/-- `mapToGoOS`: the three names it lists are mapped to themselves. -/
def mapToGoOS (osName : String) : String := osName.toLower

/-- `sysInfo[key]`; a missing key reads as the empty text. -/
def sysInfoValue (info : List (String × String)) (key : String) : String :=
  (info.lookup key).getD ""

/-- `collectRemoteSystemInfo` -/
def collectRemoteSystemInfo : Program (List (String × String)) := do
  let info ← querySystemInfo systemInfoCommands
  pure (info ++ [("goarch", mapToGoArch (sysInfoValue info "arch")),
    ("goos", mapToGoOS (sysInfoValue info "os"))])

/-- The loop of `executeDeployCommands`: a failing command is logged and passed over. -/
def runDeployCommands : List Command → Program (List DeployStep)
  | [] => pure []
  | step :: steps => do
    let (output, err) ← runSSHCommand step.cmd
    let rest ← runDeployCommands steps
    pure (⟨step.desc, trimSpace output, err⟩ :: rest)

/-- `executeDeployCommands`: the log and the error, which is nil whatever the commands come to. -/
def executeDeployCommands (ext : Externals) (installPath : String) (node : Node) :
    Program (List DeployStep × Option String) := do
  let deployLog ← runDeployCommands (deployCommands ext.httpHost ext.httpPost installPath node)
  pure (deployLog, none)

/-- The last lines of both deployments: `result`, with `status` and `error`, and the message. -/
def deployAnswer (completed warned : String) (node : Node) (sysInfo : List (String × String))
    (deployLog : List DeployStep) (deployErr : Option String) : Reply :=
  match deployErr with
  | some err =>
    .response (success warned (.deployed ⟨node, sysInfo, deployLog, "partial", some err⟩))
  | none => .response (success completed (.deployed ⟨node, sysInfo, deployLog, "success", none⟩))

/-- The last line of the audit entry of both deployments. -/
def deployRemark (caller : Caller) (node : Node) (form : SSHForm) : String :=
  "Node:" ++ node.name ++ "\nSSH:" ++ form.sshUser ++ "@" ++ form.sshHost ++ ":" ++
    toString (deployPort form.sshPort).toInt ++ "\nPath:" ++ deployPath form.installPath ++
    "\nClient Ip:" ++ caller.clientIP

/-- The node row after `DeployNode` has run the commands. -/
def deployedNode (ext : Externals) (node : Node) (sshHost : String)
    (sysInfo : List (String × String)) : Node :=
  { node with
    ip := sshHost
    os := if sysInfoValue sysInfo "os" ≠ "" then sysInfoValue sysInfo "os" else node.os
    arch := if sysInfoValue sysInfo "arch" ≠ "" then sysInfoValue sysInfo "arch" else node.arch
    address :=
      if node.address = "" then "http://" ++ sshHost ++ ":" ++ ext.httpPost else node.address }

/-- `DeployNode`, once the form has been checked. -/
def deployNodeWith (ext : Externals) (caller : Caller) (form : DeployForm) : Program Reply := do
  match ← findNode .nodeRequest form.nodeID with
  | .error _ => pure (.response (error ErrorCode.NOT_FOUND "node not found"))
  | .ok nodeModel =>
    if nodeModel.isMaster then
      pure (.response (error ErrorCode.PARSE_PARAMS_ERROR "cannot deploy to master node"))
    else do
      match ← sshDial form.sshHost (deployPort form.sshPort) form.sshUser form.sshPass with
      | .error err =>
        pure (.response (error ErrorCode.PARSE_PARAMS_ERROR ("SSH connection failed: " ++ err)))
      | .ok _ => do
        let sysInfo ← collectRemoteSystemInfo
        -- the answer is a success whatever the commands and the save come to
        let deployed ← executeDeployCommands ext (deployPath form.installPath) nodeModel
        let nodeModel := deployedNode ext nodeModel form.sshHost sysInfo
        let _ ← saveNode nodeModel
        addOperationLog caller.userId nodeModel.id "DeployNode"
          (deployRemark caller nodeModel form.toSSHForm)
        pure (deployAnswer "deploy success" "deploy completed with warnings"
          nodeModel sysInfo deployed.1 deployed.2)

/-- `DeployNode` -/
def deployNode (ext : Externals) (caller : Caller) (body : Except String DeployForm) :
    Program Reply :=
  match body with
  | .error err => pure (.response (error ErrorCode.PARSE_PARAMS_ERROR ("parse fail:" ++ err)))
  | .ok form =>
    match validateSSHHost ext form.sshHost with
    | .error err =>
      pure (.response (error ErrorCode.PARSE_PARAMS_ERROR ("invalid SSH host: " ++ err)))
    | .ok _ =>
      if form.sshUser = "" then
        pure (.response (error ErrorCode.PARSE_PARAMS_ERROR "SSH user is required"))
      else if form.sshPass = "" then
        pure (.response (error ErrorCode.PARSE_PARAMS_ERROR "SSH password is required"))
      else
        match validateInstallPath (deployPath form.installPath) with
        | some err =>
          pure (.response (error ErrorCode.PARSE_PARAMS_ERROR ("invalid install path: " ++ err)))
        | none =>
          if form.nodeID > 0 then deployNodeWith ext caller form
          else pure (.response (error ErrorCode.PARSE_PARAMS_ERROR "node_id is required"))

/-- `DeployNewNode`, once the form has been checked. -/
def deployNewNodeWith (ext : Externals) (caller : Caller) (form : DeployNewForm) :
    Program Reply := do
  match ← findNodeNamed form.name none with
  | .ok _ => pure (.response (error ErrorCode.PARSE_PARAMS_ERROR "node name already exists"))
  | .error _ => do
    match ← sshDial form.sshHost (deployPort form.sshPort) form.sshUser form.sshPass with
    | .error err =>
      pure (.response (error ErrorCode.PARSE_PARAMS_ERROR ("SSH connection failed: " ++ err)))
    | .ok _ => do
      let sysInfo ← collectRemoteSystemInfo
      let secretKey ← randomString 32
      let row : Node :=
        { toStamps := Base.zero, name := form.name, region := form.region,
          address := "http://" ++ form.sshHost ++ ":" ++ ext.httpPost, secretKey := secretKey,
          status := 0, isMaster := false, remark := form.remark, ip := form.sshHost,
          os := sysInfoValue sysInfo "os", arch := sysInfoValue sysInfo "arch" }
      match ← createNode row with
      | .error _ => pure (.response (error ErrorCode.DB_ERROR "create node fail"))
      | .ok nodeModel => do
        -- the node exists before it is deployed, and stays if the commands fail
        let deployed ← executeDeployCommands ext (deployPath form.installPath) nodeModel
        addOperationLog caller.userId nodeModel.id "DeployNewNode"
          (deployRemark caller nodeModel form.toSSHForm)
        pure (deployAnswer "node created and deployed successfully"
          "node created, deploy completed with warnings" nodeModel sysInfo deployed.1 deployed.2)

/-- `DeployNewNode` -/
def deployNewNode (ext : Externals) (caller : Caller) (body : Except String DeployNewForm) :
    Program Reply :=
  match body with
  | .error err => pure (.response (error ErrorCode.PARSE_PARAMS_ERROR ("parse fail:" ++ err)))
  | .ok form =>
    if form.name = "" then
      pure (.response (error ErrorCode.PARSE_PARAMS_ERROR "node name is required"))
    else
      match validateSSHHost ext form.sshHost with
      | .error err =>
        pure (.response (error ErrorCode.PARSE_PARAMS_ERROR ("invalid SSH host: " ++ err)))
      | .ok _ =>
        if form.sshUser = "" ∨ form.sshPass = "" then
          pure (.response (error ErrorCode.PARSE_PARAMS_ERROR "SSH credentials are required"))
        else
          match validateInstallPath (deployPath form.installPath) with
          | some err =>
            pure (.response
              (error ErrorCode.PARSE_PARAMS_ERROR ("invalid install path: " ++ err)))
          | none => deployNewNodeWith ext caller form

end Gonitor.Controller
