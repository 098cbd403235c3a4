import Gonitor.Model.Rows
import Mathlib.Data.String.Basic

/-!
# The Deployment Commands

The pure part of `controller/deploy.go`: the check of the install path and the texts of the
eight commands that `executeDeployCommands` sends to the remote shell.
-/

namespace Gonitor.Deploy

open Gonitor.Model

/-! ## The install path -/

/-- The characters of `safePathPattern`: `[a-zA-Z0-9/_\-\.]`. -/
def isSafePathChar (c : Char) : Bool :=
  c.isAlphanum || c == '/' || c == '_' || c == '-' || c == '.'

/-- `strings.Contains(path, "..")` -/
def containsDotDot : List Char → Bool
  | '.' :: '.' :: _ => true
  | _ :: rest => containsDotDot rest
  | [] => false

/-- `validateInstallPath`: the text of the error, if there is one.  The pattern has no
    multi-line flag, so `^` and `$` only match at the two ends of the text. -/
def validateInstallPath (path : String) : Option String :=
  if path = "" then some "install path is empty"
  else if ¬ path.toList.all isSafePathChar then some "install path contains invalid characters"
  else if containsDotDot path.toList then some "install path must not contain '..'"
  else none

/-! ## The command texts -/

/-- `config.yml`, between the two `GONITOR_EOF` of its here-document. -/
def configBody (installPath httpPost masterAddr secretKey nodeName : String) : String :=
  "App:\n" ++
  "  Debug: false\n" ++
  "  DbLog: false\n" ++
  "  LogFile: " ++ installPath ++ "/tmp/run.log\n" ++
  "\n" ++
  "Script:\n" ++
  "  Folder: " ++ installPath ++ "/script\n" ++
  "  LogFolder: " ++ installPath ++ "/tmp/log\n" ++
  "\n" ++
  "Sqlite:\n" ++
  "  DbPath: " ++ installPath ++ "/gonitor.db\n" ++
  "\n" ++
  "HttpServer:\n" ++
  "  Host: 0.0.0.0\n" ++
  "  Post: " ++ httpPost ++ "\n" ++
  "\n" ++
  "Agent:\n" ++
  "  MasterAddress: " ++ masterAddr ++ "\n" ++
  "  SecretKey: " ++ secretKey ++ "\n" ++
  "  NodeName: " ++ nodeName ++ "\n"

/-- The systemd unit, between the two `GONITOR_EOF` of its here-document. -/
def serviceBody (installPath : String) : String :=
  "[Unit]\n" ++
  "Description=Gonitor Agent - Edge Node\n" ++
  "After=network-online.target\n" ++
  "Wants=network-online.target\n" ++
  "\n" ++
  "[Service]\n" ++
  "Type=simple\n" ++
  "WorkingDirectory=" ++ installPath ++ "\n" ++
  "ExecStart=" ++ installPath ++ "/gonitor start\n" ++
  "Restart=always\n" ++
  "RestartSec=5\n" ++
  "WatchdogSec=60\n" ++
  "StandardOutput=journal\n" ++
  "StandardError=journal\n" ++
  "KillMode=mixed\n" ++
  "KillSignal=SIGTERM\n" ++
  "TimeoutStopSec=30\n" ++
  "\n" ++
  "[Install]\n" ++
  "WantedBy=multi-user.target\n"

/-- A command of `executeDeployCommands`. -/
structure Command where
  desc : String
  cmd : String
  deriving DecidableEq

/-- The list `commands` of `executeDeployCommands`. -/
def deployCommands (httpHost httpPost installPath : String) (node : Node) : List Command :=
  let masterAddr := "http://" ++ httpHost ++ ":" ++ httpPost
  [⟨"Creating install directory", "mkdir -p " ++ installPath⟩,
   ⟨"Creating config directory", "mkdir -p " ++ installPath ++ "/tmp/log"⟩,
   ⟨"Generating agent config", "cat > " ++ installPath ++ "/config.yml << 'GONITOR_EOF'\n" ++
      configBody installPath httpPost masterAddr node.secretKey node.name ++ "GONITOR_EOF"⟩,
   ⟨"Generating systemd service", "cat > /tmp/gonitor-agent.service << 'GONITOR_EOF'\n" ++
      serviceBody installPath ++ "GONITOR_EOF"⟩,
   ⟨"Installing systemd service", "sudo cp /tmp/gonitor-agent.service " ++
      "/etc/systemd/system/gonitor-agent.service 2>/dev/null || true"⟩,
   ⟨"Reloading systemd", "sudo systemctl daemon-reload 2>/dev/null || true"⟩,
   ⟨"Enabling auto-start", "sudo systemctl enable gonitor-agent.service 2>/dev/null || true"⟩,
   ⟨"Checking installation", "ls -la " ++ installPath ++ "/"⟩]

end Gonitor.Deploy
