import Gonitor.Concurrent.Phases
import Gonitor.Integrity.Importing
import Gonitor.Integrity.Placement
import Gonitor.Requests.NodeGuard
import Gonitor.Requests.Placing
import Gonitor.Server.Bootstrap

/-!
# What the Master Runs

A task with a `NodeID` belongs to the edge node of this id; the master runs the tasks without one
and those that name the master.  `Manager.AddTask` asks `isLocalTask` before it schedules a task,
`StartOnceTask` does not ask; a node that cannot be found counts as the master; and a run goes on
with the row that was read when its task was scheduled, whatever happens to the row.

Threads take turns as everywhere in the pool; between two steps of threads a whole import can take
place, which its transaction keeps apart from them.

## Main Results

- `master_runs_its_own`: where the lookups find the node, runs begin only for tasks placed on the
  master and their rows stay there, the master starts processes for its own tasks only.
- `startOnceTask_runs_edge_task`: a run-once request starts the process of a task of an edge node.
-/

namespace Gonitor.Concurrent

open Gonitor.Model Gonitor.Server Gonitor.Controller Gonitor.Requests Gonitor.Integrity
  AtomicProgram SoftDelete

/-! ## Placement -/

/-- The row of the task has no node, or names the master. -/
def TaskOnMaster (s : State) (taskId : Int) : Prop :=
  ∃ row, s.db.task.byId taskId = some row ∧ OnMaster s.db.node row.nodeID

/-- The row of the task names a live node that is not the master. -/
def TaskOnEdge (s : State) (taskId : Int) : Prop :=
  ∃ row node, s.db.task.byId taskId = some row ∧ row.nodeID ≠ 0 ∧
    s.db.node.byId row.nodeID = some node ∧ node.isMaster = false

/-- One step of the server: of a thread, or an import. -/
inductive ServerStep (ext : Externals) (C : StepCondition) (p : ServerPool) : ServerPool → Prop
  | thread {p' : ServerPool} : (server ext).StepIn (onOps C) p p' → ServerStep ext C p p'
  | imported {body : Except String (List TaskTransferItem)} {reply : Reply} {s' : State} :
      Serves ext AnyStep (.importTasks body) reply p.shared s' →
      ServerStep ext C p ⟨s', p.threads⟩

/-- From start-up on, with operations under `B`, and through any steps under `C`: a process is
    started only for a task that is the master's at that moment. -/
def RunsItsOwn (ext : Externals) (B : State → Op → Choice → Prop) (C : StepCondition) : Prop :=
  ∀ p₀ p : ServerPool, StartedUp ext B p₀.shared → (∀ tid, p₀.threads tid = none) →
    Relation.ReflTransGen (ServerStep ext C) p₀ p →
    ∀ tid task log command args, AtOp p tid (.run (.startProcess task log command args)) →
      TaskOnMaster p.shared task.id ∧ ¬ TaskOnEdge p.shared task.id

/-! ## The condition -/

/-- The lookup that `isLocalTask` makes finds the node; it only fails for the master. -/
def LookupFinds (s : State) : Op → Choice → Prop
  | .db (.findNode .managerIsLocalTask id), c =>
    ∃ node, s.db.node.byId id = some node ∧ (c.fail = true → node.isMaster = true)
  | _, _ => True

/-- A run-once run begins only for a task of the master, a scheduled run only while the row of its
    task has the node it was scheduled with. -/
def BeginsPlaced (s : State) : Op → Prop
  | .run (.newRunningInstance task false) => TaskOnMaster s task.id
  | .run (.newRunningInstance task true) =>
    ∃ row, s.db.task.byId task.id = some row ∧ row.nodeID = task.nodeID
  | _ => True

/-- The run has begun and can still come to start a process. -/
def Run.MayStart (run : Run) : Prop :=
  run.phase ≠ .fired ∧
    if run.scheduled = true then ¬ run.NoAttemptLeft else run.phase = .begun ∨ run.phase = .ready

/-- No run of the task can start a process any more. -/
def NoStartLeft (L : Nat → Option Local) (taskId : Int) : Prop :=
  ∀ j run, runs L j = some run → run.task.id = taskId → ¬ run.MayStart

/-- The row of a task is taken off the master, or deleted, only when no run can start a process. -/
def StaysPlaced (s : State) (L : Nat → Option Local) : Op → Choice → Prop
  | .db (.saveTask row), c => c.fail = false → OnMaster s.db.node row.nodeID ∨ NoStartLeft L row.id
  | .db (.deleteTask id), c => c.fail = false → NoStartLeft L id
  | _, _ => True

/-- All three. -/
def PlacedStep : StepCondition := fun s L _ o c =>
  LookupFinds s o c ∧ BeginsPlaced s o ∧ StaysPlaced s L o c

/-! ## The masters stay the masters -/

/-- These nodes are the live masters. -/
structure Masters (masters : Int → Prop) (nodes : Table Node) : Prop where
  there : ∀ id, masters id → ∃ node, nodes.byId id = some node
  master_iff : ∀ id node, nodes.byId id = some node → (node.isMaster = true ↔ masters id)

/-- The live masters of a table. -/
def masterIds (nodes : Table Node) (id : Int) : Prop :=
  ∃ node, nodes.byId id = some node ∧ node.isMaster = true

/-- A row that says of its node whether it is a master. -/
def MasterRow (masters : Int → Prop) (row : Node) : Prop :=
  (row.isMaster = true ↔ masters row.id) ∧ live row = true

section Nodes

variable {masters : Int → Prop} {nodes nodes' : Table Node} {nodeID : Int}

theorem masters_masterIds (nodes : Table Node) : Masters (masterIds nodes) nodes where
  there := by
    rintro id ⟨node, hnode, -⟩
    exact ⟨node, hnode⟩
  master_iff id node hnode := by simp [masterIds, hnode]

theorem masterRow_guard : NodeGuard (MasterRow masters) fun _ => True where
  kept := by
    rintro row row' hstamps hmaster _ ⟨hiff, hlive⟩
    constructor
    · rw [hmaster, hstamps]
      exact hiff
    · rw [← hlive]
      exact congrArg (fun st : Stamps Time => st.deletedAt.isNone) hstamps
  rekeyed row key _ _ hrow := hrow

theorem Masters.masterRow (h : Masters masters nodes) (id : Int) (node : Node)
    (hnode : nodes.byId id = some node) : MasterRow masters node := by
  obtain ⟨-, hid, hlive⟩ := Table.mem_of_byId hnode
  refine ⟨?_, hlive⟩
  rw [show node.id = id from hid]
  exact h.master_iff id node hnode

theorem Masters.onMaster_iff (h : Masters masters nodes) :
    OnMaster nodes nodeID ↔ OnOneOf masters nodeID := by
  constructor
  · rintro (hzero | ⟨node, hnode, hmaster⟩)
    · exact .inl hzero
    · exact .inr ((h.master_iff nodeID node hnode).mp hmaster)
  · rintro (hzero | hmaster)
    · exact .inl hzero
    · obtain ⟨node, hnode⟩ := h.there nodeID hmaster
      exact .inr ⟨node, hnode, (h.master_iff nodeID node hnode).mpr hmaster⟩

/-- No handler makes a node a master, or deletes one. -/
theorem Masters.step {c : Choice} {o : Op} (h : Masters masters nodes)
    (ho : NodeOk (MasterRow masters) (fun _ => True) (fun id => ¬ masters id) o)
    (hstep : NodeStep c nodes o nodes') : Masters masters nodes' := by
  cases hstep with
  | same => exact h
  | @created row now hok =>
    -- the key of the new row was no master's
    have hnew : ¬ masters nodes.nextId := by
      intro hmaster
      obtain ⟨node, hnode⟩ := h.there _ hmaster
      have hlt := Table.rowId_lt_nextId (Table.byId_eq_some.mp hnode).1
      exact absurd hlt (Int.lt_irrefl _)
    constructor
    · intro id hmaster
      rw [Table.byId_create]
      split
      · exact ⟨_, rfl⟩
      · exact h.there id hmaster
    · intro id node hnode
      rw [Table.byId_create] at hnode
      split at hnode
      · rename_i hid
        cases hnode
        rw [hid]
        have hmaster : (nodes.inserted row now).isMaster = false := ho.1
        simp [hmaster, hnew]
      · exact h.master_iff id node hnode
  | @saved row now _ hok hsave =>
    obtain ⟨hiff, hlive⟩ := ho
    constructor
    · intro id hmaster
      rw [Table.byId_save hsave hlive]
      split
      · exact ⟨_, rfl⟩
      · exact h.there id hmaster
    · intro id node hnode
      rw [Table.byId_save hsave hlive] at hnode
      split at hnode
      · rename_i hid
        cases hnode
        rw [hid]
        exact hiff
      · exact h.master_iff id node hnode
  | @deleted id now hok =>
    constructor
    · intro id' hmaster
      rw [Table.byId_delete]
      split
      · rename_i hid
        exact absurd (hid ▸ hmaster) ho
      · exact h.there id' hmaster
    · intro id' node hnode
      rw [Table.byId_delete] at hnode
      split at hnode
      · cases hnode
      · exact h.master_iff id' node hnode

end Nodes

/-! ## What is scheduled -/

/-- The masters are these, and all entries of cron are of tasks placed on them. -/
structure Sited (masters : Int → Prop) (s : State) : Prop where
  nodes : Masters masters s.db.node
  entries : ∀ x ∈ s.sched.cron.entries, OnOneOf masters x.job.taskInfo.nodeID

/-- The operation keeps the masters, and schedules and saves tasks as it should. -/
def SitedOk (masters : Int → Prop) (o : Op) : Prop :=
  NodeOk (MasterRow masters) (fun _ => True) (fun id => ¬ masters id) o ∧ PlacingOk masters o

/-- What such operations are answered. -/
def SitedAns (masters : Int → Prop) (o : Op) (r : o.Res) : Prop :=
  NodeAns (MasterRow masters) (fun _ => True) o r ∧ PlacingAns masters o r

section Sited

variable {ext : Externals} {masters : Int → Prop} {s s' : State} {o : Op} {c : Choice} {r : o.Res}

/-- A lookup that finds its node tells the truth; one that fails was for the master. -/
theorem placingAns_of_exec (h : Masters masters s.db.node) (hlookup : LookupFinds s o c)
    (hexec : exec ext o c s = some (r, s')) : PlacingAns masters o r := by
  unfold PlacingAns
  split
  · exact (Table.mem_of_byId (byId_of_findTask hexec)).2.2
  · intro hmaster
    exact (h.master_iff _ _ (byId_of_findNode hexec)).mp hmaster
  · obtain ⟨node, hnode, hfail⟩ := hlookup
    obtain ⟨-, hr, -⟩ := exec_db hexec
    simp only [DbOp.exec, query, hnode] at hr
    split at hr
    · rename_i hfailed
      exact (h.master_iff _ node hnode).mp (hfail hfailed)
    · cases hr
  · trivial

theorem Sited.step (h : Sited masters s) (ho : SitedOk masters o) (hlookup : LookupFinds s o c)
    (hexec : exec ext o c s = some (r, s')) : SitedAns masters o r ∧ Sited masters s' := by
  refine ⟨⟨?_, placingAns_of_exec h.nodes hlookup hexec⟩, ?_, ?_⟩
  · exact nodeAns_of_exec h.nodes.masterRow (fun _ _ => trivial) hexec
  · exact h.nodes.step ho.1 (nodeStep_of_exec hexec)
  · intro x hx
    rcases entry_cases hexec hx with hold | ⟨⟨spec, rfl⟩, -⟩
    · exact h.entries x hold
    · exact ho.2

theorem start_sited : Gonitor.Task.start.Assured (SitedOk masters) (SitedAns masters) := by
  apply Prog.Assured.and _ start_places
  apply assured_of_keepsNodes
  exact start_startWork.mono fun o ho => keepsNodes_of_both o (keepsBoth_of_startWork o ho)

/-- Start-up schedules only tasks of the masters. -/
theorem sited_of_startedUp (h : StartedUp ext LookupFinds s) : ∃ masters, Sited masters s := by
  obtain ⟨db, now, hrun⟩ := h
  have hboot : Sited (masterIds db.node) (State.boot db now) :=
    ⟨masters_masterIds db.node, fun x hx => by cases hx⟩
  have hstart : Gonitor.Task.start.Assured (SitedOk (masterIds db.node))
      (SitedAns (masterIds db.node)) := start_sited
  refine ⟨masterIds db.node, hstart.runs ?_ hboot hrun⟩
  rintro o s r s' hs ho ⟨c, hlookup, hexec⟩
  exact hs.step ho hlookup hexec

/-- Every thread of the pool starts out so. -/
theorem sited_of_spawn {x : Start} {th : Thread Op Op.Res Reply Local}
    (h : spawn ext x s = some th) : th.prog.Assured (SitedOk masters) (SitedAns masters) := by
  rcases spawn_cases h with ⟨caller, req, -, hreq, rfl⟩ | ⟨-, rfl⟩ | ⟨e, entry, -, -, -, rfl⟩
  · apply Prog.Assured.and _ (request_places caller req hreq)
    apply request_assured masterRow_guard.duty _ caller req hreq
    intro _ row hrow hedge hmaster
    rw [hrow.1.mpr hmaster] at hedge
    cases hedge
  · apply Prog.Assured.and
    · exact assured_of_keepsNodes (keepsNodes stopThread_keepsBoth)
    · exact Places.of_inert (stopThread_stopWork.mono inert_of_stopWork)
  · apply Prog.Assured.and
    · exact assured_of_keepsNodes (keepsNodes (runThread_keepsBoth entry.id entry.job))
    · exact Places.of_inert ((runThread_runWork entry.id entry.job).mono inert_of_runWork)

end Sited

/-! ## Runs -/

section Runs

variable {run run' : Run} {o : Op}

/-- A run that can start a process could before, or is just beginning. -/
theorem mayStart_step (hmay : run'.MayStart) (hsame : run.SameRun run')
    (hstep : PhaseStep run o run'.phase run'.attempts) :
    run.MayStart ∨ (run.phase = .fired ∧ o = .run (.newRunningInstance run.task true)) := by
  obtain ⟨hbegun, hmay⟩ := hmay
  rw [hsame.scheduled] at hmay
  cases hscheduled : run.scheduled with
  | true =>
    rw [if_pos hscheduled] at hmay
    have hleft : ¬ run.NoAttemptLeft := fun hleft =>
      hmay (noAttemptLeft_step hleft hscheduled hsame hstep)
    by_cases hfired : run.phase = .fired
    · -- from its first place a run that does not end can only begin
      have hover : run'.phase ≠ .over := fun hover => hmay (by simp [Run.NoAttemptLeft, hover])
      rcases inFlight_step ⟨hbegun, hover⟩ hstep with hflight | hbegin
      · exact absurd hfired hflight.1
      · exact .inr ⟨hfired, hbegin⟩
    · left
      unfold Run.MayStart
      rw [if_pos hscheduled]
      exact ⟨hfired, hleft⟩
  | false =>
    have hnot : ¬ run.scheduled = true := by simp [hscheduled]
    rw [if_neg hnot] at hmay
    unfold Run.MayStart
    rw [if_neg hnot]
    generalize run'.phase = phase at hstep hmay hbegun
    generalize run'.attempts = attempts at hstep
    cases hstep with
    | stay => exact .inl ⟨hbegun, hmay⟩
    | «begin» hphase => exact .inr ⟨hphase, rfl⟩
    | pass hphase => simp [hphase]
    | retry _ hscheduled => exact absurd hscheduled hnot
    -- at its other places it has begun, and its one attempt is made
    | work _ hin => rcases hmay with rfl | rfl <;> cases hin
    | complete _ _ hphase => rcases hphase with rfl | rfl <;> simp at hmay
    | finish _ hphase => rcases hphase with rfl | rfl | rfl <;> simp at hmay
    | _ => simp at hmay

/-- Before a process is started, one can be started. -/
theorem mayStart_of_startProcess {ℓ : Local} {task : Task} {log : Int} {command : String}
    {args : List String} (h : Allowed ℓ (.run (.startProcess task log command args))) :
    ∃ run, ℓ.run = some run ∧ run.task = task ∧ run.MayStart := by
  obtain ⟨run, hrun, hphase, -, htask, -⟩ := id h
  refine ⟨run, hrun, htask, by simp [hphase], ?_⟩
  split
  · rename_i hscheduled
    exact fun hleft => not_startProcess_of_noAttemptLeft hrun hleft hscheduled h
  · exact .inr hphase

end Runs

/-! ## The rows stay -/

/-- The row of the task is placed on a master. -/
def RowPlaced (masters : Int → Prop) (tasks : Table Task) (taskId : Int) : Prop :=
  ∃ row, tasks.byId taskId = some row ∧ OnOneOf masters row.nodeID

/-- A run that is about to begin was scheduled for a master, and while a run can start a process,
    the row of its task is placed on one. -/
structure RunsPlaced (masters : Int → Prop) (s : State) (L : Nat → Option Local) : Prop where
  fired : ∀ j run, runs L j = some run → run.phase = .fired → OnOneOf masters run.task.nodeID
  placed : ∀ j run, runs L j = some run → run.MayStart → RowPlaced masters s.db.task run.task.id

section Rows

variable {ext : Externals} {masters : Int → Prop} {s s' : State} {L : Nat → Option Local}
  {tid : Nat} {ℓ : Local} {o : Op} {c : Choice} {r : o.Res}

theorem keepsSavepoint_of_allowed (h : Allowed ℓ o) : KeepsSavepoint o := by
  unfold KeepsSavepoint
  split
  case h_4 => trivial
  all_goals exact h

/-- The row of a run that can start a process stays placed. -/
theorem rowPlaced_of_exec (hs : Sited masters s) (hok : PlacingOk masters o)
    (hallowed : Allowed ℓ o) (hstay : StaysPlaced s L o c) {j : Nat} {run : Run}
    (hrun : runs L j = some run) (hmay : run.MayStart)
    (h : RowPlaced masters s.db.task run.task.id) (hexec : exec ext o c s = some (r, s')) :
    RowPlaced masters s'.db.task run.task.id := by
  obtain ⟨row, hrow, hplaced⟩ := h
  have hstep := (taskStep_of_exec (keepsSavepoint_of_allowed hallowed) hexec).1
  generalize s'.db.task = tasks' at hstep ⊢
  cases hstep with
  | same => exact ⟨row, hrow, hplaced⟩
  | created hfail =>
    -- the key of a new row is no task's
    have hold : run.task.id ≠ s.db.task.nextId := by
      have hlt := Table.rowId_lt_nextId (Table.byId_eq_some.mp hrow).1
      omega
    refine ⟨row, ?_, hplaced⟩
    rw [Table.byId_create, if_neg hold]
    exact hrow
  | @saved saved now _ hfail hsave =>
    unfold RowPlaced
    rw [Table.byId_save hsave hok]
    split
    · rename_i hid
      refine ⟨_, rfl, ?_⟩
      rw [nodeID_saved]
      rcases hstay hfail with hmaster | hleft
      · exact hs.nodes.onMaster_iff.mp hmaster
      · exact absurd hmay (hleft j run hrun hid)
    · exact ⟨row, hrow, hplaced⟩
  | @deleted id now hfail =>
    have hother : run.task.id ≠ id := fun hid => hstay hfail j run hrun hid hmay
    refine ⟨row, ?_, hplaced⟩
    rw [Table.byId_delete, if_neg hother]
    exact hrow

theorem RunsPlaced.spawn (h : RunsPlaced masters s L) (hs : Sited masters s)
    (hfresh : Fresh s ℓ) : RunsPlaced masters s (Function.update L tid (some ℓ)) := by
  constructor
  · intro j run hrun hfired
    rcases runs_spawn hfresh hrun with hold | ⟨x, hx, rfl⟩
    · exact h.fired j run hold hfired
    · exact hs.entries x hx
  · intro j run hrun hmay
    rcases runs_spawn hfresh hrun with hold | ⟨x, hx, rfl⟩
    · exact h.placed j run hold hmay
    · exact absurd rfl hmay.1

theorem RunsPlaced.op (h : RunsPlaced masters s L) (hs : Sited masters s)
    (hok : PlacingOk masters o) (hℓ : L tid = some ℓ) (hallowed : Allowed ℓ o)
    (hC : PlacedStep s L tid o c) (hexec : exec ext o c s = some (r, s')) :
    RunsPlaced masters s' (Function.update L tid (some (next ℓ o r))) := by
  obtain ⟨-, hbegins, hstay⟩ := hC
  constructor
  · intro j run' hrun' hfired
    rcases runs_step hℓ hallowed hrun' with ⟨run, hrun, hsame, hstep⟩ | ⟨-, task, -, rfl⟩
    · rw [hsame.task]
      exact h.fired j run hrun (fired_step hstep hfired).1
    · cases hfired
  · intro j run' hrun' hmay'
    rcases runs_step hℓ hallowed hrun' with ⟨run, hrun, hsame, hstep⟩ | ⟨-, task, rfl, rfl⟩
    · rw [hsame.task]
      rcases mayStart_step hmay' hsame hstep with hmay | ⟨hfired, rfl⟩
      · exact rowPlaced_of_exec hs hok hallowed hstay hrun hmay (h.placed j run hrun hmay) hexec
      · -- a scheduled run begins: its row has the node that it was scheduled with
        obtain ⟨row, hrow, hnode⟩ := hbegins
        rw [tasks_of_exec (show KeepsTasks (.run _) from trivial) hexec]
        refine ⟨row, hrow, ?_⟩
        rw [hnode]
        exact h.fired j run hrun hfired
    · -- a run-once run begins
      obtain ⟨row, hrow, hmaster⟩ := hbegins
      rw [tasks_of_exec (show KeepsTasks (.run _) from trivial) hexec]
      exact ⟨row, hrow, hs.nodes.onMaster_iff.mp hmaster⟩

end Rows

/-! ## In every run of the server -/

/-- What holds from start-up on. -/
structure Placed (ext : Externals) (masters : Int → Prop) (p : ServerPool) : Prop where
  sited : Sited masters p.shared
  runs : RunsPlaced masters p.shared (locals p)
  disciplined : (server ext).Disciplined Allowed Final p
  assured : AllAssured (SitedOk masters) (SitedAns masters) p

section Steps

variable {ext : Externals} {masters : Int → Prop} {p p' : ServerPool}

/-- A step of a thread. -/
theorem Placed.thread (h : Placed ext masters p)
    (hstep : (server ext).StepIn (onOps PlacedStep) p p') : Placed ext masters p' := by
  obtain ⟨hsited, hassured⟩ : Sited masters p'.shared ∧
      AllAssured (SitedOk masters) (SitedAns masters) p' := by
    refine assured_reach (M := server ext) (K := onOps PlacedStep) ?_ ?_ h.sited h.assured
      (.single hstep)
    · intro x s th hsp
      exact sited_of_spawn hsp
    · intro q tid c o k ℓ r s' hs hC hth ho hexec
      exact hs.step ho (hC o k ℓ hth).1 hexec
  -- the operation of the step is one that the thread is assured of
  have hstep' : (server ext).StepIn
      (onOps fun s L tid o c => PlacedStep s L tid o c ∧ SitedOk masters o) p p' := by
    obtain ⟨l, hC, hl⟩ := hstep
    refine ⟨l, ?_, hl⟩
    cases l with
    | spawn tid x => trivial
    | op tid c => exact fun o k ℓ hth => ⟨hC o k ℓ hth, (h.assured tid _ hth).1⟩
  obtain ⟨hdisciplined, -, hruns⟩ := reach_invariant
    (I := fun s L => Sited masters s ∧ RunsPlaced masters s L)
    (fun s L tid ℓ hi _ hfresh => ⟨hi.1, hi.2.spawn hi.1 hfresh⟩)
    (fun s L tid ℓ o c r s' hi hℓ hallowed hC hexec =>
      ⟨(hi.1.step hC.2 hC.1.1 hexec).2, hi.2.op hi.1 hC.2.2 hℓ hallowed hC.1 hexec⟩)
    h.disciplined ⟨h.sited, h.runs⟩ (.single hstep')
  exact ⟨hsited, hruns, hdisciplined, hassured⟩

/-- An import adds rows and leaves the others as they are. -/
theorem Placed.imported (h : Placed ext masters p) {body : Except String (List TaskTransferItem)}
    {reply : Reply} {s' : State} (hserves : Serves ext AnyStep (.importTasks body) reply p.shared s') :
    Placed ext masters ⟨s', p.threads⟩ := by
  obtain ⟨caller, hrun⟩ := hserves
  obtain ⟨hnode, hcron, rows, hrows⟩ := hrun.post (importTasks_appends body p.shared)
  constructor
  case sited =>
    constructor
    · show Masters masters s'.db.node
      rw [hnode]
      exact h.sited.nodes
    · show ∀ x ∈ s'.sched.cron.entries, OnOneOf masters x.job.taskInfo.nodeID
      rw [hcron]
      exact h.sited.entries
  case runs =>
    refine ⟨h.runs.fired, ?_⟩
    intro j run hrun hmay
    obtain ⟨row, hrow, hplaced⟩ := h.runs.placed j run hrun hmay
    exact ⟨row, Table.byId_of_rows_append hrows hrow, hplaced⟩
  case disciplined => exact h.disciplined
  case assured => exact h.assured

/-- After start-up, before the first thread. -/
theorem placed_of_startedUp (hstart : StartedUp ext LookupFinds p.shared)
    (hnone : ∀ tid, p.threads tid = none) : ∃ masters, Placed ext masters p := by
  obtain ⟨masters, hsited⟩ := sited_of_startedUp hstart
  have hthread : ∀ tid th, p.threads tid ≠ some th := by
    intro tid th hth
    rw [hnone tid] at hth
    cases hth
  have hrun : ∀ j run, runs (locals p) j ≠ some run := by
    intro j run
    simp [runs, locals, hnone j]
  exact ⟨masters, hsited, ⟨fun j run h => absurd h (hrun j run), fun j run h => absurd h (hrun j run)⟩,
    fun tid th h => absurd h (hthread tid th), fun tid th h => absurd h (hthread tid th)⟩

theorem Placed.reach (h : Placed ext masters p)
    (hreach : Relation.ReflTransGen (ServerStep ext PlacedStep) p p') : Placed ext masters p' := by
  induction hreach with
  | refl => exact h
  | tail _ hstep ih =>
    cases hstep with
    | thread hthread => exact ih.thread hthread
    | imported hserves => exact ih.imported hserves

/-- **The master runs its own tasks only**: where every lookup of `isLocalTask` finds its node,
    where runs begin only for tasks placed on the master and the rows of these tasks stay placed
    there while the runs can start processes, every process is started for a task whose row has no
    node or names the master. -/
theorem master_runs_its_own (ext : Externals) : RunsItsOwn ext LookupFinds PlacedStep := by
  intro p₀ p hstart hnone hreach tid task log command args hat
  obtain ⟨masters, hp₀⟩ := placed_of_startedUp hstart hnone
  have hp := hp₀.reach hreach
  obtain ⟨ℓ, hℓ, hallowed⟩ := allowed_of_atOp hp.disciplined hat
  obtain ⟨run, hrun, rfl, hmay⟩ := mayStart_of_startProcess hallowed
  obtain ⟨row, hrow, hplaced⟩ :=
    hp.runs.placed tid run ((runs_of_some hℓ).trans hrun) hmay
  have hmaster := hp.sited.nodes.onMaster_iff.mpr hplaced
  refine ⟨⟨row, hrow, hmaster⟩, ?_⟩
  -- a node is not both the master and another node
  rintro ⟨row', node, hrow', hnode, hbyId, hedge⟩
  obtain rfl : row = row' := Option.some.inj (hrow.symm.trans hrow')
  rcases hmaster with hzero | ⟨node', hbyId', hmaster⟩
  · exact hnode hzero
  · obtain rfl : node = node' := Option.some.inj (hbyId.symm.trans hbyId')
    rw [hedge] at hmaster
    cases hmaster

end Steps

theorem serverReach_of_reach {ext : Externals} {C : StepCondition} {p p' : ServerPool}
    (h : (server ext).Reach (onOps C) p p') :
    Relation.ReflTransGen (ServerStep ext C) p p' :=
  Relation.ReflTransGen.mono (fun _ _ => .thread) _ _ h

/-! ## A task of the master and a task of an edge node -/

/-- A task of the node 1. -/
def nodeTask : Task := { oneTask with nodeID := 1 }

/-- The database with this task, where the node 1 is `node`. -/
def nodeTaskDatabase (node : Node) : Database :=
  { emptyDatabase with task := Table.empty.create nodeTask 0, node := Table.empty.create node 0 }

/-- The node 1 is the master, so the task is scheduled at start-up. -/
def masterTaskPool : ServerPool where
  shared := { (scheduledPool nodeTask).shared with db := nodeTaskDatabase initialMaster }
  threads _ := none

theorem masterTaskPool_startedUp : StartedUp plainExternals LookupFinds masterTaskPool.shared := by
  refine ⟨nodeTaskDatabase initialMaster, 0, ?_⟩
  -- the tasks; `TaskList`, the row, the node, cron and `TaskList` for the one task
  refine .op ⟨{}, trivial, rfl⟩ (.op ⟨{}, trivial, rfl⟩ (.op ⟨{}, trivial, rfl⟩ ?_))
  refine .op ⟨{}, ⟨_, rfl, nofun⟩, rfl⟩ ?_
  exact .op ⟨{}, trivial, rfl⟩ (.op ⟨{}, trivial, rfl⟩ (.pure _ _))

/-- The job of its entry fires, and the task is run by the master. -/
theorem master_runs_its_own_once : ∃ p,
    Relation.ReflTransGen (ServerStep plainExternals PlacedStep) masterTaskPool p ∧
    (∃ task log command args, AtOp p 0 (.run (.startProcess task log command args)) ∧ task.id = 1) ∧
    TaskOnMaster p.shared 1 := by
  have hrun : ∃ p, (server plainExternals).Reach (onOps PlacedStep) masterTaskPool p ∧
      ∃ task log command args, AtOp p 0 (.run (.startProcess task log command args)) ∧
        task.id = 1 := by
    -- the run begins, reads the clock and gets its log row
    refine ⟨_, .head ⟨.spawn 0 (.fire 1), trivial, rfl⟩ (.head ⟨.op 0 {}, ?_, rfl⟩
      (.head ⟨.op 0 {}, ?_, rfl⟩ (.head ⟨.op 0 {}, ?_, rfl⟩ .refl))), _, _, _, _, ⟨_, _, rfl⟩, rfl⟩
    · rintro _ _ _ ⟨⟩
      exact ⟨trivial, ⟨_, rfl, rfl⟩, trivial⟩
    all_goals
      rintro _ _ _ ⟨⟩
      exact ⟨trivial, trivial, trivial⟩
  obtain ⟨p, hreach, task, log, command, args, hat, hid⟩ := hrun
  have hreach := serverReach_of_reach hreach
  have h := master_runs_its_own plainExternals masterTaskPool p masterTaskPool_startedUp
    (fun _ => rfl) hreach 0 task log command args hat
  exact ⟨p, hreach, ⟨task, log, command, args, hat, hid⟩, hid ▸ h.1⟩

/-- The node 1 is an edge node, so the task is not scheduled. -/
def edgeTaskPool : ServerPool where
  shared := State.boot (nodeTaskDatabase { initialMaster with isMaster := false }) 0
  threads _ := none

theorem edgeTaskPool_startedUp : StartedUp plainExternals AnyStep edgeTaskPool.shared := by
  refine ⟨nodeTaskDatabase { initialMaster with isMaster := false }, 0, ?_⟩
  -- the tasks; `TaskList`, the row and the node for the one task
  exact runs_of_choices (List.replicate 4 {}) (fun _ _ _ _ => trivial) rfl

/-- A run-once request for the task comes to its attempt. -/
def runOnce : List (Label Choice Start) :=
  .spawn 0 (.request ⟨0, ""⟩ (.startOnceTask 1)) :: List.replicate 5 (.op 0 {})

/-- The master starts the process of a task that belongs to an edge node. -/
theorem startOnceTask_runs_edge_task : ¬ RunsItsOwn plainExternals AnyStep AnyOp := by
  intro hown
  have hrun : ∃ p, (server plainExternals).run runOnce edgeTaskPool = some p ∧
      TaskOnEdge p.shared 1 ∧ ∃ task log command args, task.id = 1 ∧
        AtOp p 0 (.run (.startProcess task log command args)) :=
    ⟨_, rfl, ⟨_, _, rfl, by decide, rfl, rfl⟩, _, _, _, _, rfl, _, _, rfl⟩
  obtain ⟨p, hp, hedge, task, log, command, args, hid, hat⟩ := hrun
  have hreach := serverReach_of_reach (reach_anyOp (System.reach_of_run hp))
  have h := hown edgeTaskPool p edgeTaskPool_startedUp (fun _ => rfl) hreach 0 task log command args
    hat
  exact h.2 (hid ▸ hedge)

end Gonitor.Concurrent
