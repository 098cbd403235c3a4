import Gonitor.Requests.Isolation
import Gonitor.Web.Sessions

/-!
# Who Can Get In

A request over the network: its route, the middlewares of the route, and the handler behind them, which
are modelled one by one elsewhere.  Without a token a request can log in or is one of an agent; nothing
else gets through.  So where nobody has a token or an account whose password fits, nobody will ever have
one again, since users are made by requests of users; and `DeleteUser` deletes the last of them too.

The requests are handled one after another, and the token query is answered.

## Main Results

- `locked_out_iff`: when no request will ever change anything that is the users' to change.
-/

namespace Gonitor.Web

open Gonitor.Model Gonitor.Server Gonitor.Controller Gonitor.Requests AtomicProgram SoftDelete

/-! ## Requests over the network -/

/-- The action that a route has to have for the request. -/
def actionOf : Requests.Request → Action
  | .addTask _ => .addTask
  | .editTask _ _ => .editTask
  | .deleteTask _ => .deleteTask
  | .startTask _ => .startTask
  | .stopTask _ => .stopTask
  | .startOnceTask _ => .startOnceTask
  | .importTasks _ => .importTasks
  | .addNode _ => .addNode
  | .editNode _ _ => .editNode
  | .deleteNode _ => .deleteNode
  | .regenerateNodeKey _ => .regenerateNodeKey
  | .deployNode _ => .deployNode
  | .deployNewNode _ => .deployNewNode
  | .agentHeartbeat _ _ => .agentHeartbeat
  | .agentGetTasks _ _ => .agentGetTasks
  | .agentReportTaskResult _ _ => .agentReportTaskResult
  | .agentCheckUpdate _ _ => .agentCheckUpdate
  | .agentReportEvents _ _ => .agentReportEvents
  | .userLogin _ _ => .userLogin
  | .addUser _ => .addUser
  | .editUser _ _ => .editUser
  | .deleteUser _ => .deleteUser

/-- A route is for requests of its method. -/
def Method.admits (method : Method) (text : String) : Bool :=
  match method with
  | .GET => text == "GET"
  | .POST => text == "POST"
  | .PUT => text == "PUT"
  | .DELETE => text == "DELETE"
  | .ANY => true

/-- `getCurrentUserId`, and the address of the client. -/
def callerOf (c : Context) (clientIP : String) : Caller :=
  ⟨(c.param "current_user_id").toInt?.getD 0, clientIP⟩

/-- A request that arrives in a state, for a route of the server.  What gorm answers to the token query
    is no failure, which it is to a request with several tokens. -/
structure Arrives (s : State) (w : World) (c : Context) (route : Route Action) : Prop where
  registered : route ∈ routes
  method : route.method.admits c.request.method = true
  tokens : c.userToken = s.db.userToken
  clock : s.clock ≤ w.now
  finds : Finds c.userToken c.request.token w.query
  answered : ∀ text, w.query.error ≠ some (.failure text)

/-- One request: a middleware aborts it, its action only reads, or its handler is run. -/
inductive Handles (ext : Externals) (s : State) : State → Prop
  | aborted {w : World} {c : Context} {route : Route Action} {answer : Abort × Context} :
      Arrives s w c route → runHandlers w route.middlewares c = .error answer →
      Handles ext s
        { s with clock := w.now, db := { s.db with userToken := answer.2.userToken } }
  | read {w : World} {c c' : Context} {route : Route Action} :
      Arrives s w c route → runHandlers w route.middlewares c = .ok c' →
      (∀ req, actionOf req ≠ route.action) → Handles ext s { s with clock := w.now }
  | served {w : World} {c c' : Context} {route : Route Action} {req : Requests.Request}
      {clientIP : String} {reply : Reply} {s' : State} :
      Arrives s w c route → runHandlers w route.middlewares c = .ok c' →
      actionOf req = route.action →
      Prog.Runs (execStep ext AnyStep) (req.handle ext (callerOf c' clientIP))
        { s with clock := w.now } reply s' →
      Handles ext s s'

/-! ## What is the users' to change -/

/-- A node without what its heartbeats say of it. -/
def described (n : Node) : Node :=
  { n with
    updatedAt := 0
    status := 0
    lastPingAt := none
    ip := ""
    os := ""
    arch := ""
    cpuCores := 0
    memoryTotal := 0
    goVersion := ""
    agentVersion := "" }

/-- The tasks, the users, the nodes but for their heartbeats, and what is scheduled. -/
structure Managed where
  tasks : Table Task
  users : Table User
  nodes : List Node
  sched : Scheduler

def managed (s : State) : Managed := ⟨s.db.task, s.db.user, s.db.node.rows.map described, s.sched⟩

/-- Somebody has a token that is good, or the password of an account. -/
def CanEnter (ext : Externals) (s : State) : Prop :=
  (∃ row, GoodToken s s.clock row) ∨
  ∃ loginAccount password user,
    s.db.user.first (fun u => u.loginAccount == loginAccount) = some user ∧
    ext.checkPassword password user.password = true

section Entering

variable {ext : Externals} {s s' : State}

/-- Time, and tokens that go, let nobody in. -/
theorem CanEnter.earlier (h : CanEnter ext s') (hclock : s.clock ≤ s'.clock)
    (husers : s'.db.user = s.db.user)
    (htokens : ∀ i row, s'.db.userToken.byId i = some row → s.db.userToken.byId i = some row) :
    CanEnter ext s := by
  rcases h with ⟨row, hgood⟩ | ⟨loginAccount, password, user, huser, hcheck⟩
  · exact .inl ⟨row, GoodToken.earlier hclock ⟨htokens row.id row hgood.1, hgood.2⟩⟩
  · exact .inr ⟨loginAccount, password, user, husers ▸ huser, hcheck⟩

/-- A step that leaves alone what is the users' to change, and gives no token. -/
structure Leaves (s s' : State) : Prop where
  managed : managed s' = managed s
  userToken : s'.db.userToken = s.db.userToken

theorem Leaves.refl (s : State) : Leaves s s := ⟨rfl, rfl⟩

theorem Leaves.trans {s₁ s₂ s₃ : State} (h : Leaves s₁ s₂) (h' : Leaves s₂ s₃) : Leaves s₁ s₃ :=
  ⟨h'.managed.trans h.managed, h'.userToken.trans h.userToken⟩

theorem Leaves.of_eq (htasks : s'.db.task = s.db.task) (husers : s'.db.user = s.db.user)
    (hnodes : s'.db.node.rows.map described = s.db.node.rows.map described)
    (hsched : s'.sched = s.sched) (htokens : s'.db.userToken = s.db.userToken) : Leaves s s' :=
  ⟨by simp only [Web.managed, htasks, husers, hnodes, hsched], htokens⟩

theorem Leaves.user (h : Leaves s s') : s'.db.user = s.db.user := congrArg Managed.users h.managed

theorem clock_le_of_runs {K : State → Op → Choice → Prop} {α : Type} {p : Program α} {a : α}
    (h : Prog.Runs (execStep ext K) p s a s') : s.clock ≤ s'.clock := by
  refine h.invariant (I := fun s' => s.clock ≤ s'.clock) ?_ (Int.le_refl _)
  rintro o s₁ r s₂ ⟨c, -, hexec⟩ hle
  exact hle.trans (clock_le_of_exec hexec)

end Entering

/-! ## The middlewares -/

section Middlewares

variable {s : State} {w : World} {c c' : Context} {route : Route Action}

/-- The routes that a request can take without a token. -/
theorem checked_or_open : ∀ route ∈ routes, Middleware.checkToken ∈ route.middlewares ∨
    route.action ∈ [.userLogin, .agentHeartbeat, .agentGetTasks, .agentReportTaskResult,
      .agentCheckUpdate, .agentReportEvents, .testPush, .getVersionInfo, .healthCheck, .readyCheck] := by
  decide

/-- Whoever gets past the check has a good token. -/
theorem goodToken_of_passed (harrives : Arrives s w c route)
    (hcheck : Middleware.checkToken ∈ route.middlewares)
    (h : runHandlers w route.middlewares c = .ok c') : ∃ row, GoodToken s s.clock row := by
  have hpasses := (runHandlers_ok h).1 _ hcheck
  simp only [Middleware.passes, Bool.and_eq_true, bne_iff_ne, ne_eq, Bool.not_eq_true'] at hpasses
  obtain ⟨hfound, hunexpired⟩ := hpasses
  have hread : w.query.userToken ∈ presented c.userToken c.request.token := by
    have hfinds := harrives.finds
    have hanswered := harrives.answered
    generalize w.query = query at hfound hfinds hanswered
    cases hfinds with
    | row hrow => exact hrow
    | notFound => exact absurd rfl hfound
    | failure text => exact absurd rfl (hanswered text)
    | interrupted text hrow => exact hrow
  obtain ⟨hmem, hlive, -⟩ := mem_presented.mp hread
  rw [harrives.tokens] at hmem
  exact ⟨_, GoodToken.earlier harrives.clock ⟨Table.byId_of_mem hmem hlive, hunexpired⟩⟩

theorem userToken_corsHeaders (c : Context) : (corsHeaders c).userToken = c.userToken := by
  unfold corsHeaders
  split <;> rfl

/-- A handler that hands on leaves the tokens. -/
theorem userToken_of_handle {handler : Middleware} (h : handler.handle w c = .ok c') :
    c'.userToken = c.userToken := by
  cases handler with
  | exception =>
    cases h
    rfl
  | cors =>
    simp only [Middleware.handle, cors] at h
    split at h <;> cases h
    exact userToken_corsHeaders c
  | checkToken =>
    obtain ⟨-, rfl⟩ := checkToken_ok h
    rfl

/-- A chain that aborts gives no token. -/
theorem tokens_of_aborted {handlers : List Middleware} {answer : Abort × Context}
    (h : runHandlers w handlers c = .error answer) {i : Int} {row : UserToken}
    (hrow : answer.2.userToken.byId i = some row) : c.userToken.byId i = some row := by
  induction handlers generalizing c with
  | nil => cases h
  | cons handler rest ih =>
    simp only [runHandlers, List.foldlM_cons] at h
    cases hfirst : handler.handle w c with
    | ok c₁ =>
      rw [hfirst] at h
      exact userToken_of_handle hfirst ▸ ih h
    | error stop =>
      rw [hfirst] at h
      cases h
      cases handler with
      | exception => cases hfirst
      | cors =>
        simp only [Middleware.handle, cors] at hfirst
        split at hfirst <;> cases hfirst
        rwa [userToken_corsHeaders] at hrow
      | checkToken =>
        apply byId_tokensAfter (w := w)
        simp only [Middleware.handle] at hfirst
        rwa [hfirst]

end Middlewares

/-! ## What gets through without a token -/

section Unchecked

variable {ext : Externals} {K : State → Op → Choice → Prop} {s s' : State} {o : Op} {c : Choice}
  {r : o.Res}

/-- Plain operations, and the rows that agents hand in. -/
def AgentWork : Op → Prop
  | .db (.createReportLog _) | .db (.createNodeEvent _) => True
  | o => Plain o

theorem keepsView_of_agentWork (o : Op) (h : AgentWork o) : o.KeepsView := by
  unfold AgentWork at h
  split at h
  case h_3 => exact keepsView_of_plain o h
  all_goals trivial

/-- No such operation is about users or their tokens. -/
theorem accounts_of_exec (ho : AgentWork o) (h : exec ext o c s = some (r, s')) :
    s'.db.user = s.db.user ∧ s'.db.userToken = s.db.userToken := by
  obtain ⟨hstep, -⟩ := accountStep_of_exec h
  generalize s'.db.user = users', s'.db.userToken = tokens' at hstep
  cases hstep with
  | same => exact ⟨rfl, rfl⟩
  | created | saved | deleted | tokensDeleted | tokenCreated => exact ho.elim

theorem leaves_of_exec (ho : AgentWork o) (h : exec ext o c s = some (r, s')) : Leaves s s' := by
  obtain ⟨husers, htokens⟩ := accounts_of_exec ho h
  cases o with
  | db o =>
    obtain ⟨-, -, rfl⟩ := exec_db h
    obtain ⟨htasks, -, hnodes⟩ :=
      DbOp.exec_tables (keepsView_of_agentWork _ ho) c (s.clock + c.elapsed) s.db
    exact .of_eq htasks husers (congrArg (fun nodes => nodes.rows.map described) hnodes) rfl htokens
  | sched o => exact ho.elim
  | run o => exact ho.elim
  | world o =>
    obtain ⟨-, -, rfl⟩ := exec_world h
    exact ⟨rfl, rfl⟩

theorem leaves_of_uses {α : Type} {p : Program α} (hp : p.Uses AgentWork) (s : State) :
    Ensures ext K p (fun _ s' => Leaves s s') s := by
  refine hp.wp (I := fun s' => Leaves s s') (fun o s₁ ho h₁ => ⟨trivial, ?_⟩) (Leaves.refl s)
  rintro r s₂ ⟨c, -, hexec⟩
  exact h₁.trans (leaves_of_exec ho hexec)

/-- A row that only differs in what heartbeats say is saved. -/
theorem leaves_of_saveNode {row found : Node} {r : Except DbError Unit}
    (hfound : s.db.node.byId row.id = some found)
    (hrow : ∀ now, described (Table.saved row now) = described found)
    (h : exec ext (.db (.saveNode row)) c s = some (r, s')) : Leaves s s' := by
  have hnodes : s'.db.node.rows.map described = s.db.node.rows.map described := by
    have hstep := nodeStep_of_exec h
    generalize s'.db.node = nodes' at hstep ⊢
    cases hstep with
    | same => rfl
    | saved _ hsave =>
      obtain ⟨hmem, hid, -⟩ := Table.mem_of_byId hfound
      obtain ⟨front, back, hrows⟩ := List.append_of_mem hmem
      rw [Table.rows_save hsave hrows hid, hrows]
      simp [hrow]
  have haccounts : s'.db.user = s.db.user ∧ s'.db.userToken = s.db.userToken := by
    obtain ⟨hstep, -⟩ := accountStep_of_exec h
    generalize s'.db.user = users', s'.db.userToken = tokens' at hstep
    cases hstep
    exact ⟨rfl, rfl⟩
  have htasks : s'.db.task = s.db.task := tasks_of_exec (o := .db (.saveNode row)) trivial h
  have hsched : s'.sched = s.sched := by
    obtain ⟨-, -, rfl⟩ := exec_db h
    rfl
  exact .of_eq htasks haccounts.1 hnodes hsched haccounts.2

/-- The node of an agent request is found first. -/
theorem withNode_leaves {secretKey : String} {answer : Node → Program Reply}
    (h : ∀ node s₁, agentNode s₁ secretKey = some node →
      Ensures ext K (answer node) (fun _ s' => Leaves s₁ s') s₁) :
    Ensures ext K (withNode secretKey answer) (fun _ s' => Leaves s s') s := by
  refine withNode_ensures (fun _ _ _ => ⟨rfl, rfl⟩) fun node now hnode => ?_
  exact (h node { s with clock := now } hnode).mono fun _ _ hleaves => ⟨hleaves.managed, hleaves.userToken⟩

theorem agentHeartbeat_leaves (secretKey : String) (info : HeartbeatInfo) :
    Ensures ext K (Controller.agentHeartbeat secretKey info) (fun _ s' => Leaves s s') s := by
  refine withNode_leaves fun node s₀ hnode => ?_
  have hbyId : s₀.db.node.byId node.id = some node := by
    rw [agentNode] at hnode
    split at hnode
    · cases hnode
    · have hlive := List.find?_some hnode
      simp only [Bool.and_eq_true] at hlive
      exact Table.byId_of_mem (List.mem_of_find?_eq_some hnode) hlive.1
  refine Ensures.op fun c instant s₁ _ h₁ => Ensures.op fun c' r s₂ _ h₂ => Ensures.pure ?_
  have hread : Leaves s₀ s₁ := leaves_of_exec (o := .world .now) trivial h₁
  obtain ⟨-, -, rfl⟩ := exec_world h₁
  -- the row saved is the row read, with what the heartbeat says
  have hstored : s₀.db.node.byId (info.apply instant node).id = some node := hbyId
  exact hread.trans (leaves_of_saveNode hstored (fun _ => rfl) h₂)

theorem createEvents_agentWork (nodeID : Int) (events : List EventItem) :
    (createEvents nodeID events).Uses AgentWork := by
  induction events with
  | nil => trivial
  | cons evt events ih =>
    have htime : evt.time.Uses AgentWork := by
      unfold EventItem.time
      split
      · trivial
      · exact ⟨trivial, fun _ => trivial⟩
    exact htime.bind fun eventTime => Prog.Uses.call_bind trivial fun _ => ih

/-- Agents leave alone what is the users' to change. -/
theorem agentRequest_leaves {req : Requests.Request} {secretKey : String}
    (hreq : req.agentKey = some secretKey) (caller : Caller) :
    Ensures ext K (req.handle ext caller) (fun _ s' => Leaves s s') s := by
  cases req with
  | agentHeartbeat secretKey info => exact agentHeartbeat_leaves secretKey info
  | agentGetTasks secretKey since =>
    refine withNode_leaves fun node s₁ _ => leaves_of_uses ?_ s₁
    exact Prog.Uses.call_bind trivial fun taskList => trivial
  | agentReportTaskResult secretKey body =>
    refine withNode_leaves fun node s₁ _ => leaves_of_uses ?_ s₁
    cases body with
    | error err => trivial
    | ok resultInfo =>
      refine Prog.Uses.call_bind trivial fun r => ?_
      cases r with
      | error err => trivial
      | ok taskModel =>
        exact Prog.Uses.call_bind trivial fun execTime => Prog.Uses.call_bind trivial fun _ => trivial
  | agentCheckUpdate secretKey currentVersion =>
    exact withNode_leaves fun node s₁ _ => Ensures.pure (Leaves.refl s₁)
  | agentReportEvents secretKey body =>
    refine withNode_leaves fun node s₁ _ => leaves_of_uses ?_ s₁
    cases body with
    | error err => trivial
    | ok events =>
      exact (createEvents_agentWork node.id events).bind fun _ => trivial
  | _ => cases hreq

/-- Without an account whose password fits, a login is refused. -/
theorem userLogin_leaves (clientIP loginAccount password : String)
    (hnone : ∀ user, s.db.user.first (fun u => u.loginAccount == loginAccount) = some user →
      ext.checkPassword password user.password ≠ true) :
    Ensures ext K (userLogin ext clientIP loginAccount password) (fun _ s' => Leaves s s') s := by
  refine Ensures.op fun c r s₁ _ h₁ => ?_
  obtain ⟨-, hr, rfl⟩ := exec_db h₁
  cases r with
  | error err => exact Ensures.pure ⟨rfl, rfl⟩
  | ok user =>
    have hwrong := hnone user (query_ok hr.symm)
    show Ensures ext K (if ¬ ext.checkPassword password user.password = true then _ else _) _ _
    rw [if_pos hwrong]
    exact Ensures.pure ⟨rfl, rfl⟩

/-- What gets through without a token leaves alone what is the users' to change, where nobody can log
    in. -/
theorem unchecked_leaves {req : Requests.Request} (hlocked : ¬ CanEnter ext s)
    (hopen : actionOf req ∈ [.userLogin, .agentHeartbeat, .agentGetTasks, .agentReportTaskResult,
      .agentCheckUpdate, .agentReportEvents, .testPush, .getVersionInfo, .healthCheck, .readyCheck])
    (caller : Caller) : Ensures ext K (req.handle ext caller) (fun _ s' => Leaves s s') s := by
  cases req with
  | userLogin loginAccount password =>
    refine userLogin_leaves caller.clientIP loginAccount password fun user huser hcheck => ?_
    exact hlocked (.inr ⟨loginAccount, password, user, huser, hcheck⟩)
  | agentHeartbeat _ _ | agentGetTasks _ _ | agentReportTaskResult _ _ | agentCheckUpdate _ _
  | agentReportEvents _ _ => exact agentRequest_leaves rfl caller
  | _ => simp [actionOf] at hopen

/-- Where nobody can get in, a request changes nothing of it, and lets nobody in. -/
theorem Handles.locked (h : Handles ext s s') (hlocked : ¬ CanEnter ext s) :
    managed s' = managed s ∧ ¬ CanEnter ext s' := by
  cases h with
  | aborted harrives haborted =>
    refine ⟨rfl, fun hcan => hlocked (hcan.earlier harrives.clock rfl fun i row hrow => ?_)⟩
    exact harrives.tokens ▸ tokens_of_aborted haborted hrow
  | read harrives _ _ =>
    exact ⟨rfl, fun hcan => hlocked (hcan.earlier harrives.clock rfl fun _ _ hrow => hrow)⟩
  | @served w c c' route req clientIP reply s' harrives hpassed haction hrun =>
    have hopen := (checked_or_open route harrives.registered).resolve_left fun hcheck =>
      hlocked (.inl (goodToken_of_passed harrives hcheck hpassed))
    rw [← haction] at hopen
    have hlocked₁ : ¬ CanEnter ext { s with clock := w.now } := fun hcan =>
      hlocked (hcan.earlier harrives.clock rfl fun _ _ hrow => hrow)
    have hleaves : Leaves { s with clock := w.now } s' :=
      hrun.post (unchecked_leaves hlocked₁ hopen (callerOf c' clientIP))
    refine ⟨hleaves.managed, fun hcan => hlocked₁ (hcan.earlier (clock_le_of_runs hrun) hleaves.user ?_)⟩
    intro i row hrow
    rwa [hleaves.userToken] at hrow

/-- A server that has crashed answers nothing any more. -/
theorem Handles.crashed (h : Handles ext s s') (hcrashed : s.os.crashed = true) :
    managed s' = managed s ∧ s'.os.crashed = true := by
  cases h with
  | aborted harrives haborted => exact ⟨rfl, hcrashed⟩
  | read harrives _ _ => exact ⟨rfl, hcrashed⟩
  | @served w c c' route req clientIP reply s' harrives hpassed haction hrun =>
    generalize req.handle ext (callerOf c' clientIP) = p at hrun
    cases hrun with
    | pure => exact ⟨rfl, hcrashed⟩
    | op hstep _ =>
      obtain ⟨c, -, hexec⟩ := hstep
      simp [exec, hcrashed] at hexec

end Unchecked

/-! ## What a user can do -/

section Users

variable {ext : Externals} {s : State} {α : Type}

/-- The program can come to an end that satisfies `Q`. -/
def Can (ext : Externals) (p : Program α) (Q : α → State → Prop) (s : State) : Prop :=
  ∃ a s', Prog.Runs (execStep ext AnyStep) p s a s' ∧ Q a s'

theorem Can.pure {a : α} {Q : α → State → Prop} (h : Q a s) : Can ext (pure a) Q s :=
  ⟨a, s, .pure a s, h⟩

theorem Can.op {o : Op} {k : o.Res → Program α} {Q : α → State → Prop} {r : o.Res} {s₁ : State}
    (c : Choice) (hexec : exec ext o c s = some (r, s₁)) (h : Can ext (k r) Q s₁) :
    Can ext (.op o k) Q s := by
  obtain ⟨a, s', hrun, hQ⟩ := h
  exact ⟨a, s', .op ⟨c, trivial, hexec⟩ hrun, hQ⟩

theorem Can.db {o : DbOp} {k : o.Res → Program α} {Q : α → State → Prop} (c : Choice)
    (hup : s.os.crashed = false)
    (h : Can ext (k (o.exec c (s.clock + c.elapsed) s.db).1) Q
      { s with clock := s.clock + c.elapsed, db := (o.exec c (s.clock + c.elapsed) s.db).2 }) :
    Can ext (.op (.db o) k) Q s := .op c (by simp [exec, hup]) h

theorem Can.world {o : WorldOp} {k : o.Res → Program α} {Q : α → State → Prop} {r : o.Res} (c : Choice)
    (hup : s.os.crashed = false) (hr : o.exec c (s.clock + c.elapsed) = some r)
    (h : Can ext (k r) Q { s with clock := s.clock + c.elapsed }) :
    Can ext (.op (.world o) k) Q s := .op c (by simp [exec, hup, hr]) h

/-- An account that nobody has. -/
theorem exists_free_account (users : Table User) : ∃ loginAccount : String,
    6 ≤ loginAccount.utf8ByteSize ∧ users.first (fun u => u.loginAccount == loginAccount) = none := by
  -- it is longer than all of them
  obtain ⟨n, hn⟩ : ∃ n, ∀ u ∈ users.rows, u.loginAccount.length ≤ n :=
    ⟨(users.rows.map fun u => u.loginAccount.length).max?.getD 0, fun u hu =>
      List.le_max?_getD_of_mem (List.mem_map_of_mem hu)⟩
  refine ⟨"gopher" ++ String.ofList (List.replicate n 'a'), ?_, ?_⟩
  · rw [String.utf8ByteSize_append]
    exact Nat.le_add_right _ _
  · apply List.find?_eq_none.mpr
    intro u hu
    have hlength := hn u hu
    simp only [Bool.and_eq_true, beq_iff_eq, not_and]
    rintro - hsame
    have hsix : "gopher".length = 6 := rfl
    rw [hsame, String.length_append, hsix, String.length_ofList, List.length_replicate] at hlength
    omega

/-- The answer is given, and the audit entry is not written. -/
theorem Can.logged {Q : Reply → State → Prop} {reply : Reply} (hup : s.os.crashed = false)
    (userId targetId : Int) (opType remark : String)
    (h : Q reply { s with clock := s.clock + ({ fail := true } : Choice).elapsed }) :
    Can ext (addOperationLog userId targetId opType remark >>= fun _ => Pure.pure reply) Q s :=
  .db { fail := true } hup (.pure h)

variable (ext) in
/-- `AddUser` adds a user. -/
theorem addUser_adds (hup : s.os.crashed = false) : ∃ body, ∀ caller,
    Can ext (Controller.addUser caller body)
      (fun _ s' => s'.db.user.rows.length = s.db.user.rows.length + 1) s := by
  obtain ⟨loginAccount, hlong, hfree⟩ := exists_free_account s.db.user
  have hshort : ¬ loginAccount.utf8ByteSize < 6 := Nat.not_lt.mpr hlong
  refine ⟨.ok { password := "secret", confirmPassword := "secret", loginAccount := loginAccount }, ?_⟩
  intro caller
  -- the password is hashed, the account is free, the user is inserted
  refine .world {} hup rfl ?_
  simp only [registerNewUser, if_neg hshort]
  refine .db {} hup ?_
  simp only [DbOp.exec, query, hfree]
  refine .db {} hup ?_
  refine Can.logged ?_ _ _ _ _ ?_
  · exact hup
  · simp [DbOp.exec, statement, Table.create]

/-- A token that has just been made is good. -/
theorem goodToken_of_created {tokens : Table UserToken} {made : UserToken} {now : Time}
    (htokens : s.db.userToken = tokens.create made now) (hlater : s.clock ≤ made.expiredAt) :
    ∃ row, GoodToken s s.clock row := by
  refine ⟨tokens.inserted made now, ?_, ?_⟩
  · rw [htokens, Table.byId_create]
    exact if_pos (Table.rowId_inserted tokens made now)
  · have hexpiredAt : (tokens.inserted made now).expiredAt = made.expiredAt := rfl
    simp [expired, hexpiredAt, Int.not_lt.mpr hlater]

/-- The password of an account gives a token. -/
theorem userLogin_enters (hup : s.os.crashed = false) {loginAccount password : String} {user : User}
    (huser : s.db.user.first (fun u => u.loginAccount == loginAccount) = some user)
    (hcheck : ext.checkPassword password user.password = true) (clientIP : String) :
    Can ext (userLogin ext clientIP loginAccount password)
      (fun _ s' => s'.os.crashed = false ∧ ∃ row, GoodToken s' s'.clock row) s := by
  refine .db {} hup ?_
  simp only [DbOp.exec, query, huser]
  show Can ext (if ¬ ext.checkPassword password user.password = true then _ else _) _ _
  rw [if_neg (not_not_intro hcheck)]
  -- the tokens of the user go, a token is drawn, and its row is inserted
  refine .db {} hup ?_
  refine .world { text := issuedToken.token } hup rfl ?_
  refine .world {} hup rfl ?_
  refine .db {} hup ?_
  refine Can.logged ?_ _ _ _ _ ?_
  · exact hup
  · refine ⟨hup, goodToken_of_created rfl ?_⟩
    have hlater : s.clock ≤ s.clock + tokenLifetime := Int.le_add_of_nonneg_right (by decide)
    simpa using hlater

/-- A request that gets through and can be served is a step. -/
theorem handles_of_can {w : World} {c : Context} {route : Route Action} (req : Requests.Request)
    {Q : Reply → State → Prop} (harrives : Arrives s w c route) (hnow : w.now = s.clock)
    (hpasses : ∀ handler ∈ route.middlewares, handler.passes w c.request.method = true)
    (haction : actionOf req = route.action)
    (hcan : ∀ caller, Can ext (req.handle ext caller) Q s) :
    ∃ reply s', Handles ext s s' ∧ Q reply s' := by
  obtain ⟨c', hc'⟩ := runHandlers_of_passes hpasses
  obtain ⟨reply, s', hrun, hQ⟩ := hcan (callerOf c' "")
  have hserved : Prog.Runs (execStep ext AnyStep) (req.handle ext (callerOf c' ""))
      { s with clock := w.now } reply s' := by
    rw [hnow]
    exact hrun
  exact ⟨reply, s', .served harrives hc' haction hserved, hQ⟩

variable (ext) in
/-- With a good token a user can be added. -/
theorem adds_of_goodToken (hup : s.os.crashed = false) {row : UserToken}
    (hgood : GoodToken s s.clock row) : ∃ s', Handles ext s s' ∧ managed s' ≠ managed s := by
  obtain ⟨body, hcan⟩ := addUser_adds ext hup
  let route : Route Action := ⟨.POST, [.static "user"], [.exception, .cors, .checkToken], .addUser⟩
  let w : World := { query := ⟨row, none⟩, now := s.clock }
  let c : Context :=
    { request := { method := "POST", origin := "", token := [row.token] }, params := []
      userToken := s.db.userToken }
  obtain ⟨hmem, -, hlive⟩ := Table.mem_of_byId hgood.1
  have harrives : Arrives s w c route := {
    registered := by decide
    method := rfl
    tokens := rfl
    clock := Int.le_refl _
    finds := .row (mem_presented.mpr ⟨hmem, hlive, rfl⟩)
    answered := by simp [w] }
  obtain ⟨reply, s', hstep, hlength⟩ := handles_of_can (.addUser body) harrives rfl
    (by simp [route, w, c, Middleware.passes, hgood.2]) rfl hcan
  refine ⟨s', hstep, fun hsame => ?_⟩
  have husers : s'.db.user = s.db.user := congrArg Managed.users hsame
  rw [husers] at hlength
  omega

/-- Whoever has the password of an account can get a token. -/
theorem enters_of_password (hup : s.os.crashed = false) {loginAccount password : String} {user : User}
    (huser : s.db.user.first (fun u => u.loginAccount == loginAccount) = some user)
    (hcheck : ext.checkPassword password user.password = true) :
    ∃ s', Handles ext s s' ∧ s'.os.crashed = false ∧ ∃ row, GoodToken s' s'.clock row := by
  let route : Route Action := ⟨.POST, [.static "user", .static "login"], [.exception, .cors], .userLogin⟩
  let w : World := { query := ⟨UserToken.zero, some .recordNotFound⟩, now := s.clock }
  let c : Context :=
    { request := { method := "POST", origin := "", token := [] }, params := []
      userToken := s.db.userToken }
  have harrives : Arrives s w c route := {
    registered := by decide
    method := rfl
    tokens := rfl
    clock := Int.le_refl _
    finds := .notFound (by simp [c]) rfl
    answered := by simp [w] }
  obtain ⟨reply, s', hstep, hentered⟩ := handles_of_can (.userLogin loginAccount password)
    harrives rfl (by simp [route, w, c, Middleware.passes]) rfl
    fun caller => userLogin_enters hup huser hcheck caller.clientIP
  exact ⟨s', hstep, hentered⟩

end Users

/-! ## Locked out -/

/-- **When the users are locked out**: whatever requests arrive, on whatever routes, nothing that is the
    users' to change will ever change again, if and only if the server has crashed, or there is neither
    a good token nor an account whose password anything fits. -/
theorem locked_out_iff (ext : Externals) (s : State) :
    (∀ s', Relation.ReflTransGen (Handles ext) s s' → managed s' = managed s) ↔
      s.os.crashed = true ∨ ¬ CanEnter ext s := by
  constructor
  · intro hnever
    by_contra hopen
    obtain ⟨hup, hcan⟩ := not_or.mp hopen
    rw [Bool.not_eq_true] at hup
    rcases not_not.mp hcan with ⟨row, hgood⟩ | ⟨loginAccount, password, user, huser, hcheck⟩
    · obtain ⟨s', hstep, hchanged⟩ := adds_of_goodToken ext hup hgood
      exact hchanged (hnever s' (.single hstep))
    · -- a login first
      obtain ⟨s₁, hlogin, hup₁, row, hgood⟩ := enters_of_password hup huser hcheck
      obtain ⟨s', hstep, hchanged⟩ := adds_of_goodToken ext hup₁ hgood
      have hsame₁ : managed s₁ = managed s := hnever s₁ (.single hlogin)
      exact hchanged ((hnever s' (.tail (.single hlogin) hstep)).trans hsame₁.symm)
  · rintro (hcrashed | hlocked) s' hmany
    · suffices managed s' = managed s ∧ s'.os.crashed = true from this.1
      induction hmany with
      | refl => exact ⟨rfl, hcrashed⟩
      | tail _ hstep ih =>
        obtain ⟨hsame, hcrashed'⟩ := hstep.crashed ih.2
        exact ⟨hsame.trans ih.1, hcrashed'⟩
    · suffices managed s' = managed s ∧ ¬ CanEnter ext s' from this.1
      induction hmany with
      | refl => exact ⟨rfl, hlocked⟩
      | tail _ hstep ih =>
        obtain ⟨hsame, hlocked'⟩ := hstep.locked ih.2
        exact ⟨hsame.trans ih.1, hlocked'⟩

end Gonitor.Web
