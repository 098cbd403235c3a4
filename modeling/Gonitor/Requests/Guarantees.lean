import Gonitor.Requests.Health

/-!
# What the Schedule Guarantees

The invariant of the schedule, read off for the states between requests.

## Main Results

- `schedule_matches_table`: every cron entry runs the configuration that is stored for its
  task, whatever fails.
- `no_ghost_schedules`: where all steps are careful, the scheduled tasks are live, enabled
  and local, and a deleted task is never run again.
- `deleteTask_leaves_ghost`: without that condition a deleted task stays scheduled.
-/

namespace Gonitor.Requests

open Gonitor.Model Gonitor.Server Gonitor.Controller AtomicProgram SoftDelete

variable {ext : Externals} {s : State}

/-- The task requests and the node requests. -/
def TaskOrNodeRequest (req : Request) : Prop :=
  req.isTaskRequest = true ∨ req.isNodeRequest = true

/-- The task requests. -/
def TaskRequest (req : Request) : Prop := req.isTaskRequest = true

/-- The schedule is healthy in every state between requests. -/
theorem reachable_healthy {K : State → Op → Choice → Prop}
    (h : Reachable ext K TaskOrNodeRequest s) : Healthy False (fun _ => False) s.view := by
  refine h.invariant (start_healthy False.elim) ?_
  intro req caller s hreq hs
  rcases hreq with htask | hnode
  · exact taskRequest_healthy False.elim htask caller hs
  · exact nodeRequest_healthy hnode caller hs

/-- Careful steps keep the stronger invariant. -/
theorem reachable_strictly_healthy (h : Reachable ext CarefulStep TaskRequest s) :
    Healthy True (fun _ => False) s.view := by
  have hcareful : True → Careful CarefulStep := fun _ _ _ _ hK => hK
  refine h.invariant (start_healthy hcareful) ?_
  intro req caller s hreq hs
  exact taskRequest_healthy hcareful hreq caller hs

/-- Later requests keep a deleted task deleted. -/
theorem servesMany_healthy {dead : Int → Prop} {s' : State}
    (h : ServesMany ext CarefulStep TaskRequest s s') (hs : Healthy True dead s.view) :
    Healthy True dead s'.view := by
  induction h with
  | refl => exact hs
  | tail _ hone ih =>
    obtain ⟨req, reply, hreq, caller, hrun⟩ := hone
    exact hrun.post (taskRequest_healthy (fun _ _ _ _ hK => hK) hreq caller ih)

/-! ## The configuration executed -/

/-- **The configuration executed is the configuration stored**: every cron entry is the entry
    of exactly one instance in `TaskList`, under the id of its task, and its job runs the
    configuration that the row of that task holds, live or deleted. -/
theorem schedule_matches_table (h : Reachable ext AnyStep TaskOrNodeRequest s) :
    ∀ x ∈ s.sched.cron.entries, ∃ t ti,
      (s.sched.taskList.lookup t = some ti ∧ ti.entryId = x.id) ∧
      (∀ t' ti', s.sched.taskList.lookup t' = some ti' → ti'.entryId = x.id →
        t' = t ∧ ti' = ti) ∧
      ti.taskID = t ∧ ti.taskInfo.id = t ∧ x.job.taskInfo = ti.taskInfo ∧
      ∃ row, s.db.task.row? t = some row ∧
        x.job.taskInfo.configuration = row.configuration := by
  intro x hx
  have hs := reachable_healthy h
  obtain ⟨t, ti, hti, hid, hjob⟩ := hs.sound.entry_listed x hx
  obtain ⟨hkey, hinfo⟩ := hs.sound.key_eq t ti hti
  obtain ⟨row, hrow, hconf, -⟩ := hs.fresh t ti hti
  refine ⟨t, ti, ⟨hti, hid⟩, ?_, hkey, hinfo, by rw [hjob]; rfl, row, hrow, ?_⟩
  · intro t' ti' hti' hid'
    obtain rfl := hs.sound.entry_unique t' ti' t ti hti' hti (hid'.trans hid.symm)
    have hsame : s.sched.taskList.lookup t' = some ti := hti
    rw [hti', Option.some.injEq] at hsame
    exact ⟨rfl, hsame⟩
  · rw [hjob, hconf]
    rfl

/-- Externals for which every text is a schedule and a script. -/
def plainExternals : Externals where
  parseSchedule _ := true
  cronParse _ := true
  acceptsScript _ := true
  checkPassword _ _ := true
  resolveIPAddr _ := .ok ()
  cmdString _ _ := ""
  version := ""
  windows := false
  scriptFolder := ""
  httpHost := ""
  httpPost := ""

/-- Steps in which nothing fails. -/
def SureStep (_ : State) (_ : Op) (c : Choice) : Prop := c.fail = false

theorem noDbFailure_sureStep : NoDbFailure SureStep := fun _ _ _ hok => hok

/-- A database without rows. -/
def emptyDatabase : Database :=
  ⟨.empty, .empty, .empty, .empty, .empty, .empty, .empty, none⟩

/-- A task of the database below, as it is stored. -/
def oneTask : Task := { toStamps := ⟨1, 0, 0, none⟩, priority := 1 }

/-- A database with one task, whose id is 1. -/
def oneTaskDatabase : Database :=
  { emptyDatabase with task := Table.empty.create oneTask 0 }

/-- The state after start-up on that database. -/
def oneTaskState : State where
  clock := 0
  db := oneTaskDatabase
  sched := { Scheduler.init with
    cron := ⟨[⟨1, Gonitor.Task.wrappedJob oneTask⟩], 2⟩
    taskList := (∅ : AList (fun _ : Int => TaskInstance)).insert 1 ⟨1, oneTask, 1⟩ }
  os := .init

theorem oneTaskState_startedUp : StartedUp plainExternals CarefulStep oneTaskState := by
  refine ⟨oneTaskDatabase, 0, ?_⟩
  -- the tasks; then `TaskList`, the row, cron and `TaskList` for the one task
  refine .op ⟨{}, trivial, rfl⟩ (.op ⟨{}, trivial, rfl⟩ (.op ⟨{}, trivial, rfl⟩ ?_))
  exact .op ⟨{}, trivial, rfl⟩ (.op ⟨{}, trivial, rfl⟩ (.pure _ _))

theorem StartedUp.anyStep {K : State → Op → Choice → Prop} (h : StartedUp ext K s) :
    StartedUp ext AnyStep s := by
  obtain ⟨db, now, hrun⟩ := h
  exact ⟨db, now, hrun.mono fun o s r s' ⟨c, _, hexec⟩ => ⟨c, trivial, hexec⟩⟩

theorem StartedUp.reachable {K : State → Op → Choice → Prop} {R : Request → Prop}
    (h : StartedUp ext K s) : Reachable ext K R s := ⟨s, h, .refl⟩

/-- The one task is stopped, and started again. -/
def stoppedAndStarted : List (Request × List Choice) :=
  [(.stopTask 1, List.replicate 8 {}), (.startTask 1, List.replicate 7 {})]

/-- Then its new entry runs the stored configuration. -/
theorem schedule_matches_table_startedAgain : ∃ s, Reachable plainExternals AnyStep TaskOrNodeRequest s ∧
    s.sched.cron.entries.map Entry.id = [2] ∧
    ∀ x ∈ s.sched.cron.entries, ∃ t ti,
      (s.sched.taskList.lookup t = some ti ∧ ti.entryId = x.id) ∧
      (∀ t' ti', s.sched.taskList.lookup t' = some ti' → ti'.entryId = x.id →
        t' = t ∧ ti' = ti) ∧
      ti.taskID = t ∧ ti.taskInfo.id = t ∧ x.job.taskInfo = ti.taskInfo ∧
      ∃ row, s.db.task.row? t = some row ∧
        x.job.taskInfo.configuration = row.configuration := by
  have hserved : ∃ s, serveWith plainExternals ⟨0, ""⟩ stoppedAndStarted oneTaskState = some s ∧
      s.sched.cron.entries.map Entry.id = [2] := ⟨_, rfl, rfl⟩
  obtain ⟨s, hserve, hentries⟩ := hserved
  have hmany : ServesMany plainExternals AnyStep TaskOrNodeRequest oneTaskState s := by
    refine servesMany_of_serveWith ?_ (fun _ _ _ _ _ _ => trivial) hserve
    simp [stoppedAndStarted, TaskOrNodeRequest, Request.isTaskRequest]
  have hreach : Reachable plainExternals AnyStep TaskOrNodeRequest s :=
    ⟨oneTaskState, oneTaskState_startedUp.anyStep, hmany⟩
  exact ⟨s, hreach, hentries, schedule_matches_table hreach⟩

/-! ## No ghost schedules -/

/-- Every scheduled task is live, enabled and local. -/
def NoGhost (s : State) : Prop :=
  ∀ t, (s.sched.taskList.lookup t).isSome = true → ∃ row, s.db.task.byId t = some row ∧
    row.isDisable = false ∧ s.view.IsLocal row.nodeID

/-- **No ghost schedules**: where every step is careful, all scheduled tasks are live, enabled
    and local; and after a successful `DeleteTask` no cron entry runs the task any more. -/
theorem no_ghost_schedules (h : Reachable ext CarefulStep TaskRequest s) :
    NoGhost s ∧
    ∀ t r s₁ s₂, Serves ext CarefulStep (.deleteTask t) (.response r) s s₁ → r.isSuccess = true →
      ServesMany ext CarefulStep TaskRequest s₁ s₂ →
      ∀ x ∈ s₂.sched.cron.entries, x.job.taskInfo.id ≠ t := by
  have hs := reachable_strictly_healthy h
  constructor
  · intro t ht
    obtain ⟨ti, hti⟩ := Option.isSome_iff_exists.mp ht
    obtain ⟨row, hrow, hconf, hstrict⟩ := hs.fresh t ti hti
    obtain ⟨hlive, hlocal⟩ := hstrict trivial
    have hdisable : row.configuration.isDisable = ti.taskInfo.configuration.isDisable := by
      rw [hconf]
    exact ⟨row, Table.byId_eq_some.mpr ⟨hrow, hlive⟩,
      hdisable.trans (hs.sound.enabled t ti hti), hlocal⟩
  · rintro t r s₁ s₂ ⟨caller, hrun⟩ hsuccess hmany x hx rfl
    have hdeleted := (hrun.post (deleteTask_healthy (fun _ _ _ _ hK => hK) caller _ hs)).2 r rfl
      hsuccess
    have hs₂ := servesMany_healthy hmany hdeleted
    obtain ⟨t, ti, hti, -, hjob⟩ := hs₂.sound.entry_listed x hx
    obtain ⟨row, hrow, -, hstrict⟩ := hs₂.fresh t ti hti
    have hid : x.job.taskInfo.id = t := by
      rw [hjob]
      exact (hs₂.sound.key_eq t ti hti).2
    have hgone := (hs₂.dead_gone _ (.inl rfl)).1
    rw [hid] at hgone
    rw [Table.byId_eq_some.mpr ⟨hrow, (hstrict trivial).1⟩] at hgone
    cases hgone

/-- After start-up the one task is rightly scheduled; a disabled task is not, and once it is
    deleted no entry runs it. -/
theorem no_ghost_schedules_oneTask :
    ((oneTaskState.sched.taskList.lookup 1).isSome = true ∧ NoGhost oneTaskState) ∧
    ∃ s r s₁, Serves plainExternals CarefulStep (.deleteTask 1) (.response r) s s₁ ∧
      r.isSuccess = true ∧ ∀ x ∈ s₁.sched.cron.entries, x.job.taskInfo.id ≠ 1 := by
  refine ⟨⟨rfl, (no_ghost_schedules oneTaskState_startedUp.reachable).1⟩, ?_⟩
  let db : Database :=
    { emptyDatabase with task := Table.empty.create { oneTask with isDisable := true } 0 }
  have hstart : StartedUp plainExternals CarefulStep (State.boot db 0) :=
    ⟨db, 0, .op ⟨{}, trivial, rfl⟩ (.pure _ _)⟩
  have hserved : ∃ r s₁, Serves plainExternals CarefulStep (.deleteTask 1) (.response r)
      (State.boot db 0) s₁ ∧ r.isSuccess = true := by
    refine ⟨_, _, ⟨⟨0, ""⟩, .op ⟨{}, trivial, rfl⟩ (.op ⟨{}, .inr rfl, rfl⟩
      (.op ⟨{}, trivial, rfl⟩ (.pure _ _)))⟩, rfl⟩
  obtain ⟨r, s₁, hrun, hsuccess⟩ := hserved
  exact ⟨_, r, s₁, hrun, hsuccess,
    (no_ghost_schedules hstart.reachable).2 1 r s₁ s₁ hrun hsuccess .refl⟩

/-- Without that condition: a task that is deleted while it is scheduled stays scheduled. -/
theorem deleteTask_leaves_ghost :
    ¬ ∀ s, Reachable plainExternals AnyStep TaskRequest s → NoGhost s := by
  intro hall
  have hserved : ∃ reply s', Prog.Runs (execStep plainExternals AnyStep)
      (Request.handle plainExternals ⟨0, ""⟩ (.deleteTask 1)) oneTaskState reply s' ∧
      s'.db.task.byId 1 = none ∧ (s'.sched.taskList.lookup 1).isSome = true := by
    -- the row is read and deleted, and no user is found for the audit entry
    refine ⟨_, _, .op ⟨{}, trivial, rfl⟩ (.op ⟨{}, trivial, rfl⟩ (.op ⟨{}, trivial, rfl⟩
      (.pure _ _))), rfl, rfl⟩
  obtain ⟨reply, s', hrun, hgone, hlisted⟩ := hserved
  have hreach : Reachable plainExternals AnyStep TaskRequest s' :=
    ⟨oneTaskState, oneTaskState_startedUp.anyStep,
      .single ⟨.deleteTask 1, reply, rfl, ⟨0, ""⟩, hrun⟩⟩
  obtain ⟨row, hrow, -⟩ := hall s' hreach 1 hlisted
  rw [hgone] at hrow
  cases hrow

end Gonitor.Requests
