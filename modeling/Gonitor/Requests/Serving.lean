import Gonitor.Controller.Task
import Gonitor.Controller.TaskTransfer
import Gonitor.Controller.Node
import Gonitor.Controller.Agent
import Gonitor.Controller.User

/-!
# Serving Requests One After the Other

The requests that change a table or the schedule, and those of the agents, each with its
handler, and the states the master is in between requests: the server starts up, then
serves requests one at a time.  Any operation may fail, on any call.

Assumptions on the operations are a parameter `K`: a step is counted only where `K` holds
of the state before it, the operation, and the way it comes out.
-/

namespace Gonitor.Requests

open Gonitor.Model Gonitor.Server Gonitor.Controller AtomicProgram

/-! ## Requests -/

inductive Request
  | addTask (body : Except String TaskMutationPayload)
  | editTask (taskId : Int) (body : Except String TaskMutationPayload)
  | deleteTask (taskId : Int)
  | startTask (taskId : Int)
  | stopTask (taskId : Int)
  | startOnceTask (taskId : Int)
  | importTasks (body : Except String (List TaskTransferItem))
  | addNode (body : Except String NodeForm)
  | editNode (nodeId : Int) (body : Except String NodeForm)
  | deleteNode (nodeId : Int)
  | regenerateNodeKey (nodeId : Int)
  | deployNode (body : Except String DeployForm)
  | deployNewNode (body : Except String DeployNewForm)
  | agentHeartbeat (secretKey : String) (info : HeartbeatInfo)
  | agentGetTasks (secretKey : String) (since : Option Time)
  | agentReportTaskResult (secretKey : String) (body : Except String TaskResult)
  | agentCheckUpdate (secretKey currentVersion : String)
  | agentReportEvents (secretKey : String) (body : Except String (List EventItem))
  | userLogin (loginAccount password : String)
  | addUser (body : Except String NewUserForm)
  | editUser (userId : Int) (body : Except String UserForm)
  | deleteUser (userId : Int)

/-- The handler of a request. -/
def Request.handle (ext : Externals) (caller : Caller) : Request → Program Reply
  | .addTask body => Controller.addTask ext caller body
  | .editTask taskId body => Controller.editTask ext caller taskId body
  | .deleteTask taskId => Controller.deleteTask caller taskId
  | .startTask taskId => Controller.startTask caller taskId
  | .stopTask taskId => Controller.stopTask caller taskId
  | .startOnceTask taskId => Controller.startOnceTask ext caller taskId
  | .importTasks body => Controller.importTasks ext body
  | .addNode body => Controller.addNode caller body
  | .editNode nodeId body => Controller.editNode caller nodeId body
  | .deleteNode nodeId => Controller.deleteNode caller nodeId
  | .regenerateNodeKey nodeId => Controller.regenerateNodeKey nodeId
  | .deployNode body => Controller.deployNode ext caller body
  | .deployNewNode body => Controller.deployNewNode ext caller body
  | .agentHeartbeat secretKey info => Controller.agentHeartbeat secretKey info
  | .agentGetTasks secretKey since => Controller.agentGetTasks secretKey since
  | .agentReportTaskResult secretKey body => Controller.agentReportTaskResult secretKey body
  | .agentCheckUpdate secretKey version => Controller.agentCheckUpdate ext secretKey version
  | .agentReportEvents secretKey body => Controller.agentReportEvents secretKey body
  | .userLogin loginAccount password =>
    Controller.userLogin ext caller.clientIP loginAccount password
  | .addUser body => Controller.addUser caller body
  | .editUser userId body => Controller.editUser caller userId body
  | .deleteUser userId => Controller.deleteUser caller userId

/-- The requests that create, change or schedule tasks. -/
def Request.isTaskRequest : Request → Bool
  | .addTask _ | .editTask _ _ | .deleteTask _ | .startTask _ | .stopTask _ | .importTasks _ => true
  | _ => false

/-- The requests about nodes. -/
def Request.isNodeRequest : Request → Bool
  | .addNode _ | .editNode _ _ | .deleteNode _ | .regenerateNodeKey _ | .deployNode _
  | .deployNewNode _ => true
  | _ => false

/-- The requests of the agents. -/
def Request.isAgentRequest : Request → Bool
  | .agentHeartbeat _ _ | .agentGetTasks _ _ | .agentReportTaskResult _ _
  | .agentCheckUpdate _ _ | .agentReportEvents _ _ => true
  | _ => false

/-- The requests that change users or their tokens. -/
def Request.isUserRequest : Request → Bool
  | .userLogin _ _ | .addUser _ | .editUser _ _ | .deleteUser _ => true
  | _ => false

/-! ## Steps and runs -/

/-- A step of one operation, under the assumption `K`. -/
def execStep (ext : Externals) (K : State → Op → Choice → Prop) (o : Op) (s : State)
    (r : o.Res) (s' : State) : Prop :=
  ∃ c, K s o c ∧ exec ext o c s = some (r, s')

/-- No assumption. -/
def AnyStep (_ : State) (_ : Op) (_ : Choice) : Prop := True

/-- A request is served: its handler runs to its end, with nothing in between. -/
def Serves (ext : Externals) (K : State → Op → Choice → Prop) (req : Request) (reply : Reply)
    (s s' : State) : Prop :=
  ∃ caller, Prog.Runs (execStep ext K) (req.handle ext caller) s reply s'

/-- The server has started up: `Manager.Start` has run on some database. -/
def StartedUp (ext : Externals) (K : State → Op → Choice → Prop) (s : State) : Prop :=
  ∃ db now, Prog.Runs (execStep ext K) Gonitor.Task.start (State.boot db now) () s

/-- One request of the kind `R` is served. -/
def ServesOne (ext : Externals) (K : State → Op → Choice → Prop) (R : Request → Prop)
    (s s' : State) : Prop :=
  ∃ req reply, R req ∧ Serves ext K req reply s s'

/-- The later state is reached from the earlier one by requests of the kind `R`. -/
def ServesMany (ext : Externals) (K : State → Op → Choice → Prop) (R : Request → Prop) :
    State → State → Prop :=
  Relation.ReflTransGen (ServesOne ext K R)

/-- The states between requests, from start-up on. -/
def Reachable (ext : Externals) (K : State → Op → Choice → Prop) (R : Request → Prop)
    (s : State) : Prop :=
  ∃ s₀, StartedUp ext K s₀ ∧ ServesMany ext K R s₀ s

/-- What has been run with the choices of a list is a run under an assumption that admits them. -/
theorem runs_of_choices {ext : Externals} {K : State → Op → Choice → Prop} {α : Type}
    {p : Program α} {s s' : State} {a : α} (choices : List Choice)
    (hK : ∀ c ∈ choices, ∀ s o, K s o c) (h : p.runWith (exec ext) choices s = some (a, s')) :
    Prog.Runs (execStep ext K) p s a s' := by
  apply (Prog.runs_of_runWith h).mono
  rintro o s₁ r s₂ ⟨c, hc, hexec⟩
  exact ⟨c, hK c hc s₁ o, hexec⟩

/-- Serve requests one after another, the operations of each with the choices listed with it. -/
def serveWith (ext : Externals) (caller : Caller) :
    List (Request × List Choice) → State → Option State
  | [], s => some s
  | x :: rest, s =>
    ((x.1.handle ext caller).runWith (exec ext) x.2 s).bind fun y => serveWith ext caller rest y.2

/-- What has been served so is reached by requests of a kind that covers those served. -/
theorem servesMany_of_serveWith {ext : Externals} {K : State → Op → Choice → Prop}
    {R : Request → Prop} {caller : Caller} {script : List (Request × List Choice)} {s s' : State}
    (hR : ∀ x ∈ script, R x.1) (hK : ∀ x ∈ script, ∀ c ∈ x.2, ∀ s o, K s o c)
    (h : serveWith ext caller script s = some s') : ServesMany ext K R s s' := by
  induction script generalizing s with
  | nil =>
    cases h
    exact .refl
  | cons x rest ih =>
    obtain ⟨y, hrun, hrest⟩ := Option.bind_eq_some_iff.mp h
    have hruns : Prog.Runs (execStep ext K) (x.1.handle ext caller) s y.1 y.2 :=
      runs_of_choices x.2 (hK x List.mem_cons_self) hrun
    have hone : ServesOne ext K R s y.2 := ⟨x.1, y.1, hR x List.mem_cons_self, caller, hruns⟩
    refine .head hone (ih ?_ ?_ hrest)
    · exact fun z hz => hR z (List.mem_cons_of_mem _ hz)
    · exact fun z hz => hK z (List.mem_cons_of_mem _ hz)

/-! ## The rules -/

section Rules

variable {ext : Externals} {K : State → Op → Choice → Prop} {α β : Type}

/-- Run alone from `s`, the program can only end as `Q` says. -/
def Ensures (ext : Externals) (K : State → Op → Choice → Prop) (p : Program α)
    (Q : α → State → Prop) (s : State) : Prop :=
  p.wp (fun _ _ => True) (execStep ext K) Q s

theorem Ensures.pure {a : α} {Q : α → State → Prop} {s : State} (h : Q a s) :
    Ensures ext K (Pure.pure a) Q s := h

theorem Ensures.op {o : Op} {k : o.Res → Program α} {Q : α → State → Prop} {s : State}
    (h : ∀ c r s', K s o c → exec ext o c s = some (r, s') → Ensures ext K (k r) Q s') :
    Ensures ext K (.op o k) Q s :=
  ⟨trivial, fun r s' ⟨c, hK, hexec⟩ => h c r s' hK hexec⟩

theorem Ensures.call_bind {o : Op} {f : o.Res → Program α} {Q : α → State → Prop} {s : State}
    (h : ∀ c r s', K s o c → exec ext o c s = some (r, s') → Ensures ext K (f r) Q s') :
    Ensures ext K (Prog.call o >>= f) Q s := Ensures.op h

/-- The rule of sequencing, from a specification of the first program. -/
theorem Ensures.bind {p : Program α} {f : α → Program β} {Q : α → State → Prop}
    {Q' : β → State → Prop} {s : State} (hp : Ensures ext K p Q s)
    (hf : ∀ a s', Q a s' → Ensures ext K (f a) Q' s') : Ensures ext K (p >>= f) Q' s :=
  (Prog.wp_bind p f Q' s).mpr (Prog.wp_mono hp hf)

theorem Ensures.mono {p : Program α} {Q Q' : α → State → Prop} {s : State}
    (hp : Ensures ext K p Q s) (hQ : ∀ a s', Q a s' → Q' a s') : Ensures ext K p Q' s :=
  Prog.wp_mono hp hQ

/-- What every run of a program satisfies, it ensures. -/
theorem Ensures.of_runs {p : Program α} {Q : α → State → Prop} {s : State}
    (h : ∀ a s', Prog.Runs (execStep ext K) p s a s' → Q a s') : Ensures ext K p Q s :=
  Prog.wp_of_runs h

/-- Two specifications of one program. -/
theorem Ensures.and {p : Program α} {Q Q' : α → State → Prop} {s : State}
    (h : Ensures ext K p Q s) (h' : Ensures ext K p Q' s) :
    Ensures ext K p (fun a s' => Q a s' ∧ Q' a s') s :=
  Prog.wp_and h h'

/-- An invariant that start-up establishes and every request keeps holds between requests. -/
theorem Reachable.invariant {R : Request → Prop} {Inv : State → Prop}
    (hstart : ∀ db now, Ensures ext K Gonitor.Task.start (fun _ s => Inv s) (State.boot db now))
    (hrequest : ∀ req caller s, R req → Inv s →
      Ensures ext K (req.handle ext caller) (fun _ s' => Inv s') s)
    {s : State} (h : Reachable ext K R s) : Inv s := by
  obtain ⟨s₀, ⟨db, now, hboot⟩, hmany⟩ := h
  induction hmany with
  | refl => exact hboot.post (hstart db now)
  | tail _ hone ih =>
    obtain ⟨req, reply, hR, caller, hrun⟩ := hone
    exact hrun.post (hrequest req caller _ hR ih)

end Rules

end Gonitor.Requests
