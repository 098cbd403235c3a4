import Gonitor.Framework.IncrementalPull
import Gonitor.Integrity.Importing
import Gonitor.Requests.Isolation

/-!
# Incremental Task Sync

An agent takes the full list of the tasks of its node once, and from then on asks `AgentGetTasks`
for those that have been updated since an earlier instant.  The instant is a server time that a
heartbeat has told it, cut to seconds.

- `assignedTo`: the tasks of a node, the source; `EdgeAgent.held`: what the agent has of them.
- `SyncStep`: requests of anybody, heartbeats and pulls, in any order.

## Main Results

- `pull_agrees_iff`: an incremental pull leaves the agent as a full one would if and only if no task
  that it has has been deleted or given to another node, and if none has been written exactly at the
  instant asked for.
- `pull_converges`: so each pull does, where no task is deleted or given to another node.
- `deleted_task_stays`: a deleted task stays with the agent for good.
-/

namespace Gonitor.Integrity

open Gonitor.Model Gonitor.Server Gonitor.Controller Gonitor.Requests AtomicProgram SoftDelete
  IncrementalPull

/-! ## The agent -/

/-- The instant that the text in the answer to a heartbeat denotes: `2006-01-02 15:04:05` has no
    fractions of a second, and is read as UTC. -/
def serverTime (instant : Time) : Time := instant - instant % 1000000000

theorem serverTime_le (instant : Time) : serverTime instant ≤ instant :=
  Int.sub_le_self _ (Int.emod_nonneg instant (by decide))

/-- The tasks of a node, by their ids. -/
def assignedTo (tasks : Table Task) (nodeID id : Int) : Option Task :=
  (tasks.byId id).filter fun t => t.nodeID == nodeID

/-- `update_time`, which a pull looks at. -/
def updateTime (t : Task) : Time := t.updatedAt

/-- Rows upserted by their ids. -/
def upsert (held : Int → Option Task) : List Task → Int → Option Task
  | [] => held
  | t :: rows => upsert (Function.update held t.id (some t)) rows

/-- What an agent knows: its tasks, and the server times that it has been told before its last pull
    and since. -/
structure EdgeAgent where
  held : Int → Option Task
  earlier : List Time
  recent : List Time

/-- An agent that has just been started. -/
def EdgeAgent.fresh : EdgeAgent := ⟨fun _ => none, [], []⟩

/-- The agent after a pull that leaves it with these tasks. -/
def EdgeAgent.pulled (a : EdgeAgent) (held : Int → Option Task) : EdgeAgent :=
  ⟨held, a.recent ++ a.earlier, []⟩

/-! ## Runs -/

/-- The key is that of the node. -/
def KeyOf (d : Database) (secretKey : String) (nodeID : Int) : Prop :=
  ∃ n, d.node.first (fun n => n.secretKey == secretKey) = some n ∧ n.id = nodeID

/-- `AgentGetTasks` has answered with these tasks. -/
def Answers (ext : Externals) (K : State → Op → Choice → Prop) (nodeID : Int) (since : Option Time)
    (rows : List Task) (s s' : State) : Prop :=
  ∃ secretKey, KeyOf s.db secretKey nodeID ∧ Serves ext K (.agentGetTasks secretKey since)
    (.response (success "success" (.tasks rows))) s s'

/-- A pull of the agent: a full one, or one since a server time told before its last pull, in a
    situation in which `G` admits it. -/
inductive Pull (ext : Externals) (K : State → Op → Choice → Prop)
    (G : State → EdgeAgent → Time → Prop) (nodeID : Int) :
    State × EdgeAgent → State × EdgeAgent → Prop
  | full {s s' : State} {a : EdgeAgent} {rows : List Task} :
      Answers ext K nodeID none rows s s' →
      Pull ext K G nodeID (s, a) (s', a.pulled (upsert (fun _ => none) rows))
  | since {s s' : State} {a : EdgeAgent} {rows : List Task} {instant : Time} :
      instant ∈ a.earlier → G s a instant → Answers ext K nodeID (some instant) rows s s' →
      Pull ext K G nodeID (s, a) (s', a.pulled (upsert a.held rows))

/-- A step of the master and the agent: a request of anybody, a heartbeat or a pull of the agent. -/
inductive SyncStep (ext : Externals) (K : State → Op → Choice → Prop)
    (G : State → EdgeAgent → Time → Prop) (nodeID : Int) :
    State × EdgeAgent → State × EdgeAgent → Prop
  | served {req : Request} {reply : Reply} {s s' : State} {a : EdgeAgent} :
      Serves ext K req reply s s' → SyncStep ext K G nodeID (s, a) (s', a)
  | heartbeat {secretKey nodeName : String} {info : HeartbeatInfo} {instant : Time} {s s' : State}
      {a : EdgeAgent} :
      Serves ext K (.agentHeartbeat secretKey info)
        (.response (success "heartbeat ok" (.heartbeat nodeID nodeName instant))) s s' →
      SyncStep ext K G nodeID (s, a) (s', { a with recent := serverTime instant :: a.recent })
  | pull {c c' : State × EdgeAgent} : Pull ext K G nodeID c c' → SyncStep ext K G nodeID c c'

/-! ## What the condition asks for -/

/-- The operation neither deletes a task of the node nor gives it to another one. -/
def KeepsAssigned (nodeID : Int) (s : State) : Op → Prop
  | .db (.deleteTask id) => assignedTo s.db.task nodeID id = none
  | .db (.saveTask row) => (assignedTo s.db.task nodeID row.id).isSome = true →
      row.nodeID = nodeID ∧ live row = true
  | _ => True

/-- In no step counted is a task of the node deleted or given to another one. -/
def LosesNoTask (nodeID : Int) (K : State → Op → Choice → Prop) : Prop :=
  ∀ s o c, K s o c → KeepsAssigned nodeID s o

/-- In no step counted does the query of a pull fail. -/
def PullsSucceed (K : State → Op → Choice → Prop) : Prop :=
  ∀ s nodeID since c, K s (.db (.nodeTasks nodeID since)) c → c.fail = false

/-- The tasks of the node that have been updated exactly at the instant are those the agent has. -/
def NoTie (nodeID : Int) (s : State) (a : EdgeAgent) (instant : Time) : Prop :=
  ∀ id t, assignedTo s.db.task nodeID id = some t → t.updatedAt = instant → a.held id = some t

/-! ## Rows and ids -/

section Rows

variable {tasks tasks' : Table Task} {nodeID id : Int} {t : Task} {held : Int → Option Task}

theorem assignedTo_eq_some :
    assignedTo tasks nodeID id = some t ↔ tasks.byId id = some t ∧ t.nodeID = nodeID := by
  simp [assignedTo, Option.filter_eq_some_iff]

theorem upsert_of_notMem {rows : List Task} (h : ∀ t ∈ rows, t.id ≠ id) :
    upsert held rows id = held id := by
  induction rows generalizing held with
  | nil => rfl
  | cons t rows ih =>
    rw [List.forall_mem_cons] at h
    rw [upsert, ih h.2, Function.update_of_ne h.1.symm]

theorem upsert_of_mem {rows : List Task} (hrows : rows.Pairwise (fun t t' => t.id < t'.id))
    (h : t ∈ rows) : upsert held rows t.id = some t := by
  induction rows generalizing held with
  | nil => cases h
  | cons t' rows ih =>
    rw [List.pairwise_cons] at hrows
    rw [upsert]
    rcases List.mem_cons.mp h with rfl | hmem
    · rw [upsert_of_notMem fun t' ht' => Int.ne_of_gt (hrows.1 t' ht'), Function.update_self]
    · exact ih hrows.2 hmem

/-- What upserting the answer of a query comes to. -/
theorem upsert_find (p : Task → Bool) :
    upsert held (tasks.find p) id = ((tasks.byId id).filter p).or (held id) := by
  cases hrow : (tasks.byId id).filter p with
  | some t =>
    obtain ⟨hbyId, hp⟩ := Option.filter_eq_some_iff.mp hrow
    obtain ⟨-, rfl, -⟩ := Table.mem_of_byId hbyId
    exact upsert_of_mem (tasks.pairwise_find p) (Table.mem_find.mpr ⟨hbyId, hp⟩)
  | none =>
    apply upsert_of_notMem
    rintro t ht rfl
    obtain ⟨hbyId, hp⟩ := Table.mem_find.mp ht
    rw [Option.filter_eq_none_iff] at hrow
    exact hrow t hbyId hp

end Rows

/-! ## One operation -/

section Steps

variable {ext : Externals} {K : State → Op → Choice → Prop} {nodeID : Int} {s s' : State}
  {lossless : Prop}

/-- What the tasks of the node may become from the instant `τ` on; if nothing is lost, all of them
    stay with it. -/
structure Later (lossless : Prop) (nodeID : Int) (τ : Time) (tasks tasks' : Table Task) : Prop where
  evolves : Evolves updateTime τ (assignedTo tasks nodeID) (assignedTo tasks' nodeID)
  keeps : lossless → Keeps (assignedTo tasks nodeID) (assignedTo tasks' nodeID)

theorem Later.refl (nodeID : Int) (τ : Time) (tasks : Table Task) :
    Later lossless nodeID τ tasks tasks :=
  ⟨.refl _ _, fun _ => .refl _⟩

theorem Later.trans {τ τ' : Time} {t t' t'' : Table Task} (h : Later lossless nodeID τ t t')
    (h' : Later lossless nodeID τ' t' t'') (hle : τ ≤ τ') : Later lossless nodeID τ t t'' :=
  ⟨h.evolves.trans h'.evolves hle, fun hl => (h.keeps hl).trans (h'.keeps hl)⟩

theorem later_create (tasks : Table Task) (row : Task) (now : Time) :
    Later lossless nodeID now tasks (tasks.create row now) where
  evolves := by
    intro id t ht
    obtain ⟨hbyId, hnode⟩ := assignedTo_eq_some.mp ht
    rw [Table.byId_create] at hbyId
    split at hbyId
    · cases hbyId
      exact .inr (Int.le_refl now)
    · exact .inl (assignedTo_eq_some.mpr ⟨hbyId, hnode⟩)
  keeps := by
    intro _ id hid
    obtain ⟨t, ht⟩ := Option.isSome_iff_exists.mp hid
    obtain ⟨hbyId, hnode⟩ := assignedTo_eq_some.mp ht
    have hne : id ≠ tasks.nextId :=
      Int.ne_of_lt (Table.rowId_lt_nextId (Table.byId_eq_some.mp hbyId).1)
    refine Option.isSome_iff_exists.mpr ⟨t, assignedTo_eq_some.mpr ⟨?_, hnode⟩⟩
    rw [Table.byId_create, if_neg hne]
    exact hbyId

theorem later_save {tasks tasks' : Table Task} {row : Task} {now : Time}
    (hsave : tasks.save row now = some tasks')
    (hrow : lossless → (assignedTo tasks nodeID row.id).isSome = true →
      row.nodeID = nodeID ∧ live row = true) :
    Later lossless nodeID now tasks tasks' where
  evolves := by
    intro id t ht
    obtain ⟨hbyId, hnode⟩ := assignedTo_eq_some.mp ht
    obtain ⟨hrow', hlive⟩ := Table.byId_eq_some.mp hbyId
    rw [Table.row?_save hsave] at hrow'
    split at hrow'
    · cases hrow'
      exact .inr (Int.le_refl now)
    · exact .inl (assignedTo_eq_some.mpr ⟨Table.byId_eq_some.mpr ⟨hrow', hlive⟩, hnode⟩)
  keeps := by
    intro hl id hid
    rcases eq_or_ne id row.id with rfl | hne
    · obtain ⟨hnode, hlive⟩ := hrow hl hid
      refine Option.isSome_iff_exists.mpr
        ⟨Table.saved row now, assignedTo_eq_some.mpr ⟨?_, hnode⟩⟩
      rw [Table.byId_save hsave hlive, rowId_task, if_pos rfl]
    · obtain ⟨t, ht⟩ := Option.isSome_iff_exists.mp hid
      obtain ⟨hbyId, hnode⟩ := assignedTo_eq_some.mp ht
      obtain ⟨hrow', hlive⟩ := Table.byId_eq_some.mp hbyId
      refine Option.isSome_iff_exists.mpr ⟨t, assignedTo_eq_some.mpr ⟨?_, hnode⟩⟩
      rw [Table.byId_eq_some, Table.row?_save hsave, rowId_task, if_neg hne]
      exact ⟨hrow', hlive⟩

theorem later_delete {tasks : Table Task} {id : Int}
    (hid : lossless → assignedTo tasks nodeID id = none) (τ now : Time) :
    Later lossless nodeID τ tasks (tasks.delete id now) where
  evolves := by
    intro id' t ht
    obtain ⟨hbyId, hnode⟩ := assignedTo_eq_some.mp ht
    rw [Table.byId_delete] at hbyId
    split at hbyId
    · cases hbyId
    · exact .inl (assignedTo_eq_some.mpr ⟨hbyId, hnode⟩)
  keeps := by
    intro hl id' hid'
    obtain ⟨t, ht⟩ := Option.isSome_iff_exists.mp hid'
    have hne : id' ≠ id := by
      rintro rfl
      rw [hid hl] at ht
      cases ht
    obtain ⟨hbyId, hnode⟩ := assignedTo_eq_some.mp ht
    refine Option.isSome_iff_exists.mpr ⟨t, assignedTo_eq_some.mpr ⟨?_, hnode⟩⟩
    rw [Table.byId_delete, if_neg hne]
    exact hbyId

/-- What has been kept since the state `s₀`: time has passed, and the tasks of the node are later
    ones, also those that a rollback would bring back. -/
structure Since (lossless : Prop) (nodeID : Int) (s₀ s : State) : Prop where
  clock : s₀.clock ≤ s.clock
  tasks : Later lossless nodeID s₀.clock s₀.db.task s.db.task
  savepoint : ∀ tasks, s.db.savepoint = some tasks → Later lossless nodeID s₀.clock s₀.db.task tasks

theorem Since.start {s : State} (h : s.db.savepoint = none) : Since lossless nodeID s s where
  clock := Int.le_refl _
  tasks := .refl _ _ _
  savepoint := by simp [h]

/-- One operation. -/
theorem Since.exec {s₀ : State} (h : Since lossless nodeID s₀ s) {o : Op} {c : Choice} {r : o.Res}
    (ho : lossless → KeepsAssigned nodeID s o) (hexec : exec ext o c s = some (r, s')) :
    Since lossless nodeID s₀ s' := by
  obtain ⟨hstep, hclock⟩ := tableStep_of_exec hexec
  have hle : s₀.clock ≤ s'.clock := by
    rw [hclock]
    exact Int.le_trans h.clock (Int.le_add_of_nonneg_right (Int.natCast_nonneg _))
  have hthen : ∀ tasks, Later lossless nodeID s'.clock s.db.task tasks →
      Later lossless nodeID s₀.clock s₀.db.task tasks := fun _ hlater => h.tasks.trans hlater hle
  have hback : Later lossless nodeID s₀.clock s₀.db.task (s.db.savepoint.getD s.db.task) := by
    cases hsave : s.db.savepoint with
    | none => exact h.tasks
    | some tasks => exact h.savepoint tasks hsave
  suffices hkept : Later lossless nodeID s₀.clock s₀.db.task s'.db.task ∧
      ∀ tasks, s'.db.savepoint = some tasks → Later lossless nodeID s₀.clock s₀.db.task tasks from
    ⟨hle, hkept.1, hkept.2⟩
  generalize s'.db.task = tasks', s'.db.savepoint = savepoint' at hstep ⊢
  cases hstep with
  | same => exact ⟨h.tasks, h.savepoint⟩
  | created => exact ⟨hthen _ (later_create _ _ _), h.savepoint⟩
  | saved _ hsave => exact ⟨hthen _ (later_save hsave ho), h.savepoint⟩
  | deleted => exact ⟨hthen _ (later_delete ho _ _), h.savepoint⟩
  | begun =>
    refine ⟨h.tasks, fun tasks htasks => ?_⟩
    cases htasks
    exact h.tasks
  | committed => exact ⟨h.tasks, nofun⟩
  | uncommitted => exact ⟨hback, nofun⟩
  | rolledBack => exact ⟨hback, nofun⟩

/-! ## One request -/

/-- A run of any program. -/
theorem since_of_runs {α : Type} {p : Program α} {a : α} (hK : lossless → LosesNoTask nodeID K)
    (hidle : s.db.savepoint = none) (h : Prog.Runs (execStep ext K) p s a s') :
    Since lossless nodeID s s' := by
  apply h.invariant (I := fun s₁ => Since lossless nodeID s s₁) _ (.start hidle)
  rintro o s₁ r s₂ ⟨c, hstep, hexec⟩ hs₁
  exact hs₁.exec (fun hl => hK hl s₁ o c hstep) hexec

/-- `ImportTasks` commits or rolls back. -/
theorem importTasks_idle (body : Except String (List TaskTransferItem))
    (hidle : s.db.savepoint = none) :
    Ensures ext K (Controller.importTasks ext body) (fun _ s' => s'.db.savepoint = none) s := by
  unfold Controller.importTasks
  cases body with
  | error err => exact Ensures.pure hidle
  | ok items =>
    dsimp only
    split
    · exact Ensures.pure hidle
    · refine (importTaskItems_spec items s).bind ?_
      rintro _ s' (⟨err, rfl, hview, -⟩ | ⟨created, rows, tasks, rfl, hview, -⟩)
      · apply Ensures.pure
        rcases hview with h | h
        · exact (congrArg View.savepoint h).trans hidle
        · exact congrArg View.savepoint h
      · exact Ensures.pure (congrArg View.savepoint hview)

/-- A request leaves no transaction open. -/
theorem idle_of_serves {req : Request} {reply : Reply} (hidle : s.db.savepoint = none)
    (h : Serves ext K req reply s s') : s'.db.savepoint = none := by
  obtain ⟨caller, hrun⟩ := h
  have hkept : (req.handle ext caller).Uses KeepsSavepoint → s'.db.savepoint = none := by
    intro huses
    have hensures : Ensures ext K (req.handle ext caller) (fun _ s' => s'.db.savepoint = none) s := by
      apply huses.wp (I := fun s' : State => s'.db.savepoint = none) _ hidle
      intro o s₁ ho hs
      refine ⟨trivial, ?_⟩
      rintro r s₂ ⟨c, -, hexec⟩
      rw [(taskStep_of_exec ho hexec).2]
      exact hs
    exact hrun.post hensures
  have hwork : (req.handle ext caller).Uses TaskWork → s'.db.savepoint = none :=
    fun h => hkept (h.mono keepsSavepoint_of_taskWork)
  cases hreq : req.isTaskRequest with
  | false => exact hkept ((request_keepsTasks hreq caller).mono keepsSavepoint_of_keepsTasks)
  | true =>
    cases req with
    | addTask body => exact hwork (addTask_taskWork caller body)
    | editTask taskId body => exact hwork (editTask_taskWork caller taskId body)
    | deleteTask taskId => exact hwork (deleteTask_taskWork caller taskId)
    | startTask taskId => exact hwork (startTask_taskWork caller taskId)
    | stopTask taskId => exact hwork (stopTask_taskWork caller taskId)
    | importTasks body => exact hrun.post (importTasks_idle body hidle)
    | _ => cases hreq

/-! ## Pulls -/

/-- What a pull is answered. -/
theorem answers_spec (hpulls : PullsSucceed K) {since : Option Time} {rows : List Task}
    (h : Answers ext K nodeID since rows s s') :
    rows = s.db.task.find (fun t => t.nodeID == nodeID && updatedAfter since t) ∧
      s'.db.task = s.db.task := by
  obtain ⟨secretKey, ⟨n, hn, hid⟩, caller, hrun⟩ := h
  have hensures : Ensures ext K (Controller.agentGetTasks secretKey since) (fun reply s' =>
      reply = .response (success "success" (.tasks rows)) →
        rows = s.db.task.find (fun t => t.nodeID == nodeID && updatedAfter since t) ∧
          s'.db.task = s.db.task) s := by
    unfold Controller.agentGetTasks withNode
    split
    · exact Ensures.pure nofun
    · refine .call_bind fun c r s₁ _ h₁ => ?_
      have hd₁ := (exec_db h₁).2.2
      cases r with
      | error err => exact Ensures.pure nofun
      | ok nodeModel =>
        have hnode := first_of_findNodeWithKey h₁
        rw [hn, Option.some.injEq] at hnode
        subst hnode
        refine .call_bind fun c list s₂ hK₂ h₂ => Ensures.pure fun heq => ?_
        cases heq
        obtain ⟨-, rfl, rfl⟩ := exec_db h₂
        rw [hid]
        subst hd₁
        simp [DbOp.exec, hpulls _ _ _ _ hK₂]
  exact hrun.post hensures rfl

/-- The time that a heartbeat has been answered with has come. -/
theorem heartbeat_spec {secretKey nodeName : String} {info : HeartbeatInfo} {instant : Time}
    (h : Serves ext K (.agentHeartbeat secretKey info)
      (.response (success "heartbeat ok" (.heartbeat nodeID nodeName instant))) s s') :
    instant ≤ s'.clock := by
  obtain ⟨caller, hrun⟩ := h
  have hensures : Ensures ext K (Controller.agentHeartbeat secretKey info) (fun reply s' =>
      reply = .response (success "heartbeat ok" (.heartbeat nodeID nodeName instant)) →
        instant ≤ s'.clock) s := by
    unfold Controller.agentHeartbeat withNode
    split
    · exact Ensures.pure nofun
    · refine .call_bind fun c r s₁ _ h₁ => ?_
      cases r with
      | error err => exact Ensures.pure nofun
      | ok nodeModel =>
        refine .call_bind fun c now s₂ _ h₂ => ?_
        refine .call_bind fun c r s₃ _ h₃ => Ensures.pure fun heq => ?_
        cases heq
        obtain ⟨-, hnow, rfl⟩ := exec_world h₂
        rw [(tableStep_of_exec h₃).2]
        cases hnow
        exact Int.le_add_of_nonneg_right (Int.natCast_nonneg _)
  exact hrun.post hensures rfl

/-- Upserting the answer of a pull is an incremental pull. -/
theorem upsert_since (held : Int → Option Task) (tasks : Table Task) (instant : Time) :
    upsert held (tasks.find fun t => t.nodeID == nodeID && updatedAfter (some instant) t) =
      IncrementalPull.pull updateTime instant (assignedTo tasks nodeID) held := by
  funext id
  rw [upsert_find, IncrementalPull.pull, assignedTo]
  cases tasks.byId id with
  | none => rfl
  | some t =>
    by_cases hnode : t.nodeID = nodeID
    · by_cases hnew : instant < t.updatedAt
      · simp [Option.filter, hnode, updatedAfter, updateTime, hnew]
      · simp [Option.filter, hnode, updatedAfter, updateTime, hnew]
    · simp [Option.filter, hnode]

/-- Upserting that of a full pull gives the tasks of the node. -/
theorem upsert_full (tasks : Table Task) :
    upsert (fun _ => none) (tasks.find fun t => t.nodeID == nodeID && updatedAfter none t) =
      assignedTo tasks nodeID := by
  funext id
  simp [upsert_find, assignedTo, updatedAfter]

/-! ## Runs -/

variable {G : State → EdgeAgent → Time → Prop} {c c' : State × EdgeAgent}

/-- The agent follows the master: what it has missed has been written after everything it has been
    told before its last pull.  If nothing is lost, it has no task that the node has not. -/
structure Following (lossless : Prop) (nodeID : Int) (c : State × EdgeAgent) : Prop where
  idle : c.1.db.savepoint = none
  recent : ∀ t ∈ c.2.recent, t ≤ c.1.clock
  behind : c.2.earlier ≠ [] → ∃ τ, τ ≤ c.1.clock ∧ (∀ t ∈ c.2.earlier, t ≤ τ) ∧
    Evolves updateTime τ c.2.held (assignedTo c.1.db.task nodeID) ∧
    (lossless → Keeps c.2.held (assignedTo c.1.db.task nodeID))

theorem following_fresh (h : s.db.savepoint = none) : Following lossless nodeID (s, .fresh) where
  idle := h
  recent := by simp [EdgeAgent.fresh]
  behind hne := absurd rfl hne

/-- Everything the agent has been told is past. -/
theorem Following.told (h : Following lossless nodeID c) :
    ∀ t ∈ c.2.recent ++ c.2.earlier, t ≤ c.1.clock := by
  intro t ht
  rcases List.mem_append.mp ht with hrecent | hearlier
  · exact h.recent t hrecent
  · obtain ⟨τ, hτ, hle, -⟩ := h.behind (List.ne_nil_of_mem hearlier)
    exact Int.le_trans (hle t hearlier) hτ

/-- A request of anybody. -/
theorem Following.served {a : EdgeAgent} {req : Request} {reply : Reply}
    (hK : lossless → LosesNoTask nodeID K) (h : Following lossless nodeID (s, a))
    (hserves : Serves ext K req reply s s') : Following lossless nodeID (s', a) := by
  have hsince : Since lossless nodeID s s' := by
    obtain ⟨caller, hrun⟩ := hserves
    exact since_of_runs hK h.idle hrun
  refine ⟨idle_of_serves h.idle hserves, fun t ht => ?_, fun hne => ?_⟩
  · exact Int.le_trans (h.recent t ht) hsince.clock
  · obtain ⟨τ, hτ, hle, hev, hkeep⟩ := h.behind hne
    exact ⟨τ, Int.le_trans hτ hsince.clock, hle, hev.trans hsince.tasks.evolves hτ,
      fun hl => (hkeep hl).trans (hsince.tasks.keeps hl)⟩

/-- **An incremental pull** leaves the agent with every task of its node, and with no other one if and
    only if it had none before. -/
theorem Following.since {a : EdgeAgent} {instant : Time} {rows : List Task} (hpulls : PullsSucceed K)
    (h : Following lossless nodeID (s, a)) (hearlier : instant ∈ a.earlier)
    (htie : NoTie nodeID s a instant) (hanswers : Answers ext K nodeID (some instant) rows s s') :
    (∀ id t, assignedTo s'.db.task nodeID id = some t → upsert a.held rows id = some t) ∧
    (upsert a.held rows = assignedTo s'.db.task nodeID ↔
      Keeps a.held (assignedTo s.db.task nodeID)) := by
  obtain ⟨rfl, htask⟩ := answers_spec hpulls hanswers
  obtain ⟨τ, -, hle, hev, -⟩ := h.behind (List.ne_nil_of_mem hearlier)
  rw [htask, upsert_since]
  exact ⟨covers_pull hev (hle _ hearlier) htie, pull_eq_iff_keeps hev (hle _ hearlier) htie⟩

/-- A full pull leaves it with them in any case. -/
theorem held_of_full {rows : List Task} (hpulls : PullsSucceed K)
    (hanswers : Answers ext K nodeID none rows s s') :
    upsert (fun _ => none) rows = assignedTo s'.db.task nodeID := by
  obtain ⟨rfl, htask⟩ := answers_spec hpulls hanswers
  rw [htask]
  exact upsert_full _

/-- Where nothing is lost, a pull leaves the agent with the tasks of its node. -/
theorem Following.held_of_pull (hpulls : PullsSucceed K)
    (hG : ∀ s a instant, G s a instant → NoTie nodeID s a instant) (hl : lossless)
    (h : Following lossless nodeID c) (hpull : Pull ext K G nodeID c c') :
    c'.2.held = assignedTo c'.1.db.task nodeID := by
  cases hpull with
  | full hanswers => exact held_of_full hpulls hanswers
  | since hearlier hg hanswers =>
    obtain ⟨-, -, -, -, hkeep⟩ := h.behind (List.ne_nil_of_mem hearlier)
    exact (h.since hpulls hearlier (hG _ _ _ hg) hanswers).2.mpr (hkeep hl)

theorem Following.pull (hpulls : PullsSucceed K) (hK : lossless → LosesNoTask nodeID K)
    (hG : ∀ s a instant, G s a instant → NoTie nodeID s a instant) (h : Following lossless nodeID c)
    (hpull : Pull ext K G nodeID c c') : Following lossless nodeID c' := by
  have hkeeps : lossless → Keeps c'.2.held (assignedTo c'.1.db.task nodeID) := by
    intro hl
    rw [h.held_of_pull hpulls hG hl hpull]
    exact .refl _
  have htold := h.told
  have hpulled : ∀ s a s' held since rows, c = (s, a) → c' = (s', a.pulled held) →
      Answers ext K nodeID since rows s s' →
      (∀ id t, assignedTo s'.db.task nodeID id = some t → held id = some t) →
      Following lossless nodeID c' := by
    rintro s a s' held since rows rfl rfl ⟨secretKey, -, hserves⟩ hcovers
    have hsince : Since lossless nodeID s s' := by
      obtain ⟨caller, hrun⟩ := hserves
      exact since_of_runs hK h.idle hrun
    refine ⟨idle_of_serves h.idle hserves, by simp [EdgeAgent.pulled], fun _ => ?_⟩
    exact ⟨s.clock, hsince.clock, htold, fun id t ht => .inl (hcovers id t ht), hkeeps⟩
  cases hpull with
  | full hanswers =>
    refine hpulled _ _ _ _ _ _ rfl rfl hanswers fun id t ht => ?_
    rw [held_of_full hpulls hanswers]
    exact ht
  | since hearlier hg hanswers =>
    exact hpulled _ _ _ _ _ _ rfl rfl hanswers (h.since hpulls hearlier (hG _ _ _ hg) hanswers).1

theorem Following.step (hpulls : PullsSucceed K) (hK : lossless → LosesNoTask nodeID K)
    (hG : ∀ s a instant, G s a instant → NoTie nodeID s a instant) (h : Following lossless nodeID c)
    (hstep : SyncStep ext K G nodeID c c') : Following lossless nodeID c' := by
  cases hstep with
  | served hserves => exact h.served hK hserves
  | heartbeat hserves =>
    obtain ⟨hidle, hrecent, hbehind⟩ := h.served hK hserves
    refine ⟨hidle, ?_, hbehind⟩
    rw [List.forall_mem_cons]
    exact ⟨Int.le_trans (serverTime_le _) (heartbeat_spec hserves), hrecent⟩
  | pull hpull => exact h.pull hpulls hK hG hpull

theorem following_of_run (hpulls : PullsSucceed K) (hK : lossless → LosesNoTask nodeID K)
    (hG : ∀ s a instant, G s a instant → NoTie nodeID s a instant) (hidle : s.db.savepoint = none)
    (hrun : Relation.ReflTransGen (SyncStep ext K G nodeID) (s, .fresh) c) :
    Following lossless nodeID c := by
  induction hrun with
  | refl => exact following_fresh hidle
  | tail _ hstep ih => exact ih.step hpulls hK hG hstep

/-- **An incremental pull agrees with a full one** if and only if the agent has no task that has been
    deleted or given to another node, whatever has happened before. -/
theorem pull_agrees_iff (hpulls : PullsSucceed K)
    (hG : ∀ s a instant, G s a instant → NoTie nodeID s a instant) {s₀ s'' : State} {a : EdgeAgent}
    {instant : Time} {rows all : List Task} (hidle : s₀.db.savepoint = none)
    (hrun : Relation.ReflTransGen (SyncStep ext K G nodeID) (s₀, .fresh) (s, a))
    (hearlier : instant ∈ a.earlier) (htie : NoTie nodeID s a instant)
    (hanswers : Answers ext K nodeID (some instant) rows s s')
    (hfull : Answers ext K nodeID none all s' s'') :
    upsert a.held rows = upsert (fun _ => none) all ↔
      ∀ id, (a.held id).isSome = true → (assignedTo s.db.task nodeID id).isSome = true := by
  -- tasks may have been lost
  have hfollowing : Following False nodeID (s, a) :=
    following_of_run hpulls False.elim hG hidle hrun
  obtain ⟨rfl, htask⟩ := answers_spec hpulls hfull
  rw [upsert_full]
  exact (hfollowing.since hpulls hearlier htie hanswers).2

/-- **Incremental task sync converges** in every run in which no task of the node is deleted or given
    to another node, no query of a pull fails, and no pull asks for the instant of an update that the
    agent has missed: after each pull the agent has what a full pull would answer. -/
theorem pull_converges (hpulls : PullsSucceed K) (hK : LosesNoTask nodeID K)
    (hG : ∀ s a instant, G s a instant → NoTie nodeID s a instant) (hidle : s.db.savepoint = none)
    (hrun : Relation.ReflTransGen (SyncStep ext K G nodeID) (s, .fresh) c)
    (hpull : Pull ext K G nodeID c c') {rows : List Task}
    (hfull : Answers ext K nodeID none rows c'.1 s') (t : Task) :
    (∃ id, c'.2.held id = some t) ↔ t ∈ rows := by
  have hfollowing : Following True nodeID c := following_of_run hpulls (fun _ => hK) hG hidle hrun
  obtain ⟨rfl, -⟩ := answers_spec hpulls hfull
  simp only [hfollowing.held_of_pull hpulls hG trivial hpull, assignedTo_eq_some, Table.mem_find,
    updatedAfter, Bool.and_true, beq_iff_eq]
  constructor
  · rintro ⟨id, hbyId, hnode⟩
    obtain ⟨-, rfl, -⟩ := Table.mem_of_byId hbyId
    exact ⟨hbyId, hnode⟩
  · rintro ⟨hbyId, hnode⟩
    exact ⟨_, hbyId, hnode⟩

end Steps

/-! ## Two runs -/

/-- Steps in which nothing fails and no task of node 1 is lost. -/
def SureKeepingStep (s : State) (o : Op) (c : Choice) : Prop :=
  c.fail = false ∧ KeepsAssigned 1 s o

/-- The agent after a heartbeat two seconds after start-up and a full pull that answered `rows`. -/
def toldAgent (rows : List Task) : EdgeAgent := ⟨upsert (fun _ => none) rows, [2000000000], []⟩

/-- The task of the node is stopped after the agent has taken it, and the next pull tells the agent. -/
theorem pull_converges_stoppedTask : ∃ (s : State) (c c' : State × EdgeAgent) (rows : List Task),
    Relation.ReflTransGen (SyncStep plainExternals SureKeepingStep (NoTie 1) 1) (s, .fresh) c ∧
    Pull plainExternals SureKeepingStep (NoTie 1) 1 c c' ∧ rows.map Task.isDisable = [true] ∧
    ∀ t, (∃ id, c'.2.held id = some t) ↔ t ∈ rows := by
  have hsteps : ∃ s₁ s₂ s₃ s₄ s₅ name rows₂ reply rows₄ rows₅,
      Serves plainExternals SureKeepingStep (.agentHeartbeat "k" {})
        (.response (success "heartbeat ok" (.heartbeat 1 name 2000000001)))
        (State.boot edgeDatabase 0) s₁ ∧
      Answers plainExternals SureKeepingStep 1 none rows₂ s₁ s₂ ∧
      Serves plainExternals SureKeepingStep (.stopTask 1) reply s₂ s₃ ∧
      Answers plainExternals SureKeepingStep 1 (some 2000000000) rows₄ s₃ s₄ ∧
      Answers plainExternals SureKeepingStep 1 none rows₅ s₄ s₅ ∧
      s₃.db.task.rows.all (fun t => t.updatedAt != 2000000000) = true ∧
      rows₅.map Task.isDisable = [true] :=
    ⟨_, _, _, _, _, _, _, _, _, _,
      ⟨⟨0, ""⟩, .op ⟨{ elapsed := 2000000001 }, ⟨rfl, trivial⟩, rfl⟩ (.op ⟨{}, ⟨rfl, trivial⟩, rfl⟩
        (.op ⟨{}, ⟨rfl, trivial⟩, rfl⟩ (.pure _ _)))⟩,
      ⟨"k", ⟨_, rfl, rfl⟩, ⟨0, ""⟩, .op ⟨{}, ⟨rfl, trivial⟩, rfl⟩
        (.op ⟨{}, ⟨rfl, trivial⟩, rfl⟩ (.pure _ _))⟩,
      ⟨⟨0, ""⟩, .op ⟨{}, ⟨rfl, trivial⟩, rfl⟩ (.op ⟨{}, ⟨rfl, trivial⟩, rfl⟩
        (.op ⟨{}, ⟨rfl, fun _ => ⟨rfl, rfl⟩⟩, rfl⟩ (.op ⟨{}, ⟨rfl, trivial⟩, rfl⟩ (.pure _ _))))⟩,
      ⟨"k", ⟨_, rfl, rfl⟩, ⟨0, ""⟩, .op ⟨{}, ⟨rfl, trivial⟩, rfl⟩
        (.op ⟨{}, ⟨rfl, trivial⟩, rfl⟩ (.pure _ _))⟩,
      ⟨"k", ⟨_, rfl, rfl⟩, ⟨0, ""⟩, .op ⟨{}, ⟨rfl, trivial⟩, rfl⟩
        (.op ⟨{}, ⟨rfl, trivial⟩, rfl⟩ (.pure _ _))⟩, rfl, rfl⟩
  obtain ⟨s₁, s₂, s₃, s₄, s₅, name, rows₂, reply, rows₄, rows₅, h₁, h₂, h₃, h₄, h₅, hlater,
    hstopped⟩ := hsteps
  have hpulls : PullsSucceed SureKeepingStep := fun _ _ _ _ hK => hK.1
  have hkeeps : LosesNoTask 1 SureKeepingStep := fun _ _ _ hK => hK.2
  -- the stop came after the instant the agent asks for
  have htie : ∀ a, NoTie 1 s₃ a 2000000000 := by
    intro a id t ht hwhen
    have hmem := (Table.mem_of_byId (assignedTo_eq_some.mp ht).1).1
    have hne := List.all_eq_true.mp hlater t hmem
    rw [hwhen] at hne
    cases hne
  have hrun : Relation.ReflTransGen (SyncStep plainExternals SureKeepingStep (NoTie 1) 1)
      (State.boot edgeDatabase 0, .fresh) (s₃, toldAgent rows₂) :=
    ((Relation.ReflTransGen.single (.heartbeat h₁)).tail (.pull (.full h₂))).tail (.served h₃)
  have hpull : Pull plainExternals SureKeepingStep (NoTie 1) 1 (s₃, toldAgent rows₂) (s₄, _) :=
    .since List.mem_cons_self (htie _) h₄
  exact ⟨_, _, _, rows₅, hrun, hpull, hstopped,
    pull_converges hpulls hkeeps (fun _ _ _ h => h) rfl hrun hpull h₅⟩

/-- The task is deleted instead: the next pull tells the agent nothing, and it keeps the task. -/
theorem deleted_task_stays : ¬ ∀ (K : State → Op → Choice → Prop) (s s' : State)
    (c c' : State × EdgeAgent) (rows : List Task), NoDbFailure K → s.db.savepoint = none →
    Relation.ReflTransGen (SyncStep plainExternals K (fun _ _ _ => True) 1) (s, .fresh) c →
    Pull plainExternals K (fun _ _ _ => True) 1 c c' →
    Answers plainExternals K 1 none rows c'.1 s' →
    ∀ t, (∃ id, c'.2.held id = some t) ↔ t ∈ rows := by
  intro hconverges
  have hsteps : ∃ s₁ s₂ s₃ s₄ s₅ name reply,
      Serves plainExternals SureStep (.agentHeartbeat "k" {})
        (.response (success "heartbeat ok" (.heartbeat 1 name 2000000001)))
        (State.boot edgeDatabase 0) s₁ ∧
      Answers plainExternals SureStep 1 none [{ oneTask with nodeID := 1 }] s₁ s₂ ∧
      Serves plainExternals SureStep (.deleteTask 1) reply s₂ s₃ ∧
      Answers plainExternals SureStep 1 (some 2000000000) [] s₃ s₄ ∧
      Answers plainExternals SureStep 1 none [] s₄ s₅ :=
    ⟨_, _, _, _, _, _, _,
      ⟨⟨0, ""⟩, .op ⟨{ elapsed := 2000000001 }, rfl, rfl⟩ (.op ⟨{}, rfl, rfl⟩
        (.op ⟨{}, rfl, rfl⟩ (.pure _ _)))⟩,
      ⟨"k", ⟨_, rfl, rfl⟩, ⟨0, ""⟩, .op ⟨{}, rfl, rfl⟩ (.op ⟨{}, rfl, rfl⟩ (.pure _ _))⟩,
      ⟨⟨0, ""⟩, .op ⟨{}, rfl, rfl⟩ (.op ⟨{}, rfl, rfl⟩ (.op ⟨{}, rfl, rfl⟩ (.pure _ _)))⟩,
      ⟨"k", ⟨_, rfl, rfl⟩, ⟨0, ""⟩, .op ⟨{}, rfl, rfl⟩ (.op ⟨{}, rfl, rfl⟩ (.pure _ _))⟩,
      ⟨"k", ⟨_, rfl, rfl⟩, ⟨0, ""⟩, .op ⟨{}, rfl, rfl⟩ (.op ⟨{}, rfl, rfl⟩ (.pure _ _))⟩⟩
  obtain ⟨s₁, s₂, s₃, s₄, s₅, name, reply, h₁, h₂, h₃, h₄, h₅⟩ := hsteps
  have hrun : Relation.ReflTransGen (SyncStep plainExternals SureStep (fun _ _ _ => True) 1)
      (State.boot edgeDatabase 0, .fresh) (s₃, toldAgent [{ oneTask with nodeID := 1 }]) :=
    ((Relation.ReflTransGen.single (.heartbeat h₁)).tail (.pull (.full h₂))).tail (.served h₃)
  have hpull : Pull plainExternals SureStep (fun _ _ _ => True) 1
      (s₃, toldAgent [{ oneTask with nodeID := 1 }]) (s₄, _) :=
    .since List.mem_cons_self trivial h₄
  have hnothing := hconverges SureStep _ s₅ _ _ [] noDbFailure_sureStep rfl hrun hpull h₅
    { oneTask with nodeID := 1 }
  have hheld := hnothing.mp ⟨1, rfl⟩
  cases hheld

end Gonitor.Integrity
