import Gonitor.Integrity.Coverage

/-!
# Restarting the Server

The schedule is kept in memory only; at a restart `Manager.Start` makes it anew from the database.  While
the server runs, six handlers keep it up to date by other code.  So a restart is a test of them: it
changes nothing if they have done what `Manager.Start` does.

## Main Results

- `start_exact`: what is scheduled after a restart, whatever the database.
- `restart_keeps_schedule`: the schedule before a restart and after it are the same.
-/

namespace Gonitor.Integrity

open Gonitor.Model Gonitor.Server Gonitor.Controller Gonitor.Requests AtomicProgram SoftDelete

section Start

variable {ext : Externals} {K : State → Op → Choice → Prop} {s : State}

/-- What the loop of `Manager.Start` adds to the schedule is live and enabled. -/
theorem addTasks_live (t : Int) (rows : List Task) :
    Ensures ext K (Gonitor.Task.addTasks rows) (fun _ s' => View.Scheduled s'.view t →
      View.Scheduled s.view t ∨
        ∃ row, s.view.tasks.byId t = some row ∧ row.isDisable = false) s := by
  induction rows generalizing s with
  | nil => exact Ensures.pure Or.inl
  | cons first rows ih =>
    refine (addTask_spec first.id s).bind fun _ s₁ h₁ => ?_
    obtain ⟨htasks, -⟩ := addOutcome_tables h₁
    refine ih.mono fun _ s' h hsched => ?_
    rcases h hsched with hsched₁ | hrow
    · rcases h₁ with hview | ⟨row, -, hfound, henabled, -, hview⟩
      · exact .inl (hview ▸ hsched₁)
      · rcases eq_or_ne t row.id with rfl | hne
        · have hid : row.id = first.id := (Table.mem_of_byId hfound).2.1
          rw [← hid] at hfound
          exact .inr ⟨row, hfound, henabled⟩
        · rw [hview, View.Scheduled, View.schedule, AList.lookup_insert_ne hne] at hsched₁
          exact .inl hsched₁
    · rw [htasks] at hrow
      exact .inr hrow

theorem start_live (t : Int) (db : Database) (now : Time) :
    Ensures ext K Gonitor.Task.start (fun _ s' => View.Scheduled s'.view t →
      ∃ row, db.task.byId t = some row ∧ row.isDisable = false) (State.boot db now) := by
  refine (Ensures.of_uses (p := enabledTasks) ⟨trivial, fun _ => trivial⟩ _).bind ?_
  intro r s₁ h₁
  have hempty : ¬ View.Scheduled s₁.view t := by
    rw [h₁]
    rintro ⟨⟩
  have htasks : s₁.view.tasks = db.task := congrArg View.tasks h₁
  cases r with
  | error err =>
    refine (Ensures.of_uses (p := crash) ⟨trivial, fun _ => trivial⟩ s₁).mono ?_
    intro _ s₂ h₂ hsched
    exact absurd (h₂ ▸ hsched) hempty
  | ok tasks =>
    refine (addTasks_live t tasks).mono fun _ s₂ h hsched => ?_
    rw [← htasks]
    exact (h hsched).resolve_left hempty

/-- **After start-up** on any database, also on one that was left in the middle of a request: where it
    answers, the scheduled tasks are the live, enabled ones that the master takes on. -/
theorem start_exact (hsure : NoDbFailure K) (db : Database) (now : Time) :
    Ensures ext K Gonitor.Task.start (fun _ s' => ∀ t, View.Scheduled s'.view t ↔
      ∃ row, db.task.byId t = some row ∧ row.isDisable = false ∧
        Places ext (State.boot db now).view row) (State.boot db now) := by
  refine Ensures.of_runs fun _ s' hrun t => ?_
  constructor
  · intro hsched
    obtain ⟨row, hrow, henabled⟩ := hrun.post (start_live t db now) hsched
    obtain rfl : row.id = t := (Table.mem_of_byId hrow).2.1
    exact ⟨row, hrow, henabled, (hrun.post (start_decides hsure hrow henabled)).mp hsched⟩
  · rintro ⟨row, hrow, henabled, hplaces⟩
    obtain rfl : row.id = t := (Table.mem_of_byId hrow).2.1
    exact (hrun.post (start_decides hsure hrow henabled)).mpr hplaces

end Start

/-! ## What is scheduled -/

/-- The node of the task is there, if it has one, and cron parses the schedule. -/
def Placeable (ext : Externals) (v : View) (row : Task) : Prop :=
  (row.nodeID = 0 ∨ ∃ node, v.nodes.byId row.nodeID = some node) ∧ ext.cronParse row.schedule = true

section Scheduled

variable {ext : Externals} {K : State → Op → Choice → Prop} {s s' : State}

/-- A task whose node is there is local if it is the master's. -/
theorem isLocal_iff_onMaster {v : View} {row : Task} (h : Placeable ext v row) :
    v.IsLocal row.nodeID ↔ OnMaster v.nodes row.nodeID := by
  constructor
  · rintro (hzero | hall)
    · exact .inl hzero
    · exact h.1.imp_right fun ⟨node, hnode⟩ => ⟨node, hnode, hall node hnode⟩
  · exact isLocal_of_onMaster

/-- Where steps are careful, a scheduled task is live, enabled and local. -/
theorem reachable_noGhost (hcareful : Careful K) (h : Reachable ext K TaskRequest s) : NoGhost s := by
  have hs : Healthy True (fun _ => False) s.view := by
    refine h.invariant (start_healthy fun _ => hcareful) ?_
    intro req caller s hreq hs
    exact taskRequest_healthy (fun _ => hcareful) hreq caller hs
  intro t ht
  obtain ⟨ti, hti⟩ := Option.isSome_iff_exists.mp ht
  obtain ⟨row, hrow, hconf, hstrict⟩ := hs.fresh t ti hti
  obtain ⟨hlive, hlocal⟩ := hstrict trivial
  have hdisable : row.configuration.isDisable = ti.taskInfo.configuration.isDisable := by
    rw [hconf]
  exact ⟨row, Table.byId_eq_some.mpr ⟨hrow, hlive⟩, hdisable.trans (hs.sound.enabled t ti hti), hlocal⟩

theorem reachable_taskOrNode (h : Reachable ext K TaskRequest s) :
    Reachable ext K TaskOrNodeRequest s := by
  obtain ⟨s₀, hstart, hmany⟩ := h
  refine ⟨s₀, hstart, Relation.ReflTransGen.mono ?_ s₀ s hmany⟩
  rintro s₁ s₂ ⟨req, reply, hreq, hserves⟩
  exact ⟨req, reply, .inl hreq, hserves⟩

/-- The table alone says what is scheduled. -/
theorem scheduled_iff (hsure : NoDbFailure K) (hcareful : Careful K)
    (h : Reachable ext K TaskRequest s)
    (hplaceable : ∀ t row, s.db.task.byId t = some row → row.isDisable = false →
      Placeable ext s.view row) (t : Int) :
    View.Scheduled s.view t ↔ ∃ row, s.db.task.byId t = some row ∧ row.isDisable = false ∧
      OnMaster s.db.node row.nodeID := by
  constructor
  · intro hsched
    obtain ⟨row, hrow, henabled, hlocal⟩ := reachable_noGhost hcareful h t hsched
    exact ⟨row, hrow, henabled, (isLocal_iff_onMaster (hplaceable t row hrow henabled)).mp hlocal⟩
  · rintro ⟨row, hrow, henabled, hmaster⟩
    obtain ⟨-, hparse⟩ := hplaceable t row hrow henabled
    exact (reachable_complete hsure (reachable_taskOrNode h)).covered t trivial
      ⟨row, hrow, henabled, hmaster, hparse⟩

/-- **A restart keeps the schedule**: through any requests about tasks in which the database answers and
    no scheduled task is deleted, if the nodes of the enabled tasks are there and cron parses their
    schedules, then after a restart the same tasks are scheduled, with the same configurations. -/
theorem restart_keeps_schedule (hsure : NoDbFailure K) (hcareful : Careful K)
    (h : Reachable ext K TaskRequest s)
    (hplaceable : ∀ t row, s.db.task.byId t = some row → row.isDisable = false →
      Placeable ext s.view row) {now : Time}
    (hrestart : Prog.Runs (execStep ext K) Gonitor.Task.start (State.boot s.db now) () s') :
    s'.sched.taskList.keys.Perm s.sched.taskList.keys ∧
    ∀ t ti ti', s.sched.taskList.lookup t = some ti → s'.sched.taskList.lookup t = some ti' →
      ti'.taskInfo.configuration = ti.taskInfo.configuration := by
  have hstarted : Reachable ext K TaskRequest s' := ⟨s', ⟨s.db, now, hrestart⟩, .refl⟩
  obtain ⟨-, htasks, -⟩ := hrestart.post (start_entered s.db now)
  constructor
  · apply (List.perm_ext_iff_of_nodup s'.sched.taskList.keys_nodup s.sched.taskList.keys_nodup).mpr
    intro t
    have hsame : View.Scheduled s'.view t ↔ View.Scheduled s.view t := by
      rw [hrestart.post (start_exact hsure s.db now) t, scheduled_iff hsure hcareful h hplaceable]
      refine exists_congr fun row => and_congr_right fun hrow => and_congr_right fun henabled => ?_
      have hrow' := hplaceable t row hrow henabled
      exact (and_iff_left hrow'.2).trans (isLocal_iff_onMaster hrow')
    exact AList.lookup_isSome.symm.trans (hsame.trans AList.lookup_isSome)
  · intro t ti ti' hti hti'
    -- both instances hold what the row says
    obtain ⟨row, hrow, hconf, -⟩ := (reachable_healthy (reachable_taskOrNode h)).fresh t ti hti
    obtain ⟨row', hrow', hconf', -⟩ := (reachable_healthy (reachable_taskOrNode hstarted)).fresh t ti' hti'
    rw [htasks] at hrow'
    obtain rfl : row' = row := Option.some.inj (hrow'.symm.trans hrow)
    rw [← hconf', hconf]

/-- Steps at which the database answers and no scheduled task is deleted. -/
def SureCarefulStep (s : State) (o : Op) (c : Choice) : Prop := SureStep s o c ∧ CarefulStep s o c

theorem noDbFailure_sureCarefulStep : NoDbFailure SureCarefulStep := fun s o c hK =>
  noDbFailure_sureStep s o c hK.1

theorem careful_sureCarefulStep : Careful SureCarefulStep := fun _ _ _ hK => hK.2

/-- Start-up with one task. -/
theorem oneTaskDatabase_start : Prog.Runs (execStep plainExternals SureCarefulStep)
    Gonitor.Task.start (State.boot oneTaskDatabase 0) () oneTaskState := by
  apply Prog.Runs.op ⟨{}, ⟨rfl, trivial⟩, rfl⟩
  apply Prog.Runs.op ⟨{}, ⟨rfl, trivial⟩, rfl⟩
  apply Prog.Runs.op ⟨{}, ⟨rfl, trivial⟩, rfl⟩
  apply Prog.Runs.op ⟨{}, ⟨rfl, trivial⟩, rfl⟩
  exact .op ⟨{}, ⟨rfl, trivial⟩, rfl⟩ (.pure _ _)

theorem oneTaskState_sureCareful : StartedUp plainExternals SureCarefulStep oneTaskState :=
  ⟨oneTaskDatabase, 0, oneTaskDatabase_start⟩

/-- The one task is stopped and started again, which gives it another entry; then the server is
    restarted. -/
theorem oneTask_startedAgain : ∃ s, Reachable plainExternals SureCarefulStep TaskRequest s ∧
    s.sched.cron.entries.map Entry.id = [2] ∧ s.sched.taskList.keys = [1] ∧
    (∀ t row, s.db.task.byId t = some row → Placeable plainExternals s.view row) ∧
    ∃ s', Prog.Runs (execStep plainExternals SureCarefulStep) Gonitor.Task.start (State.boot s.db 0)
      () s' ∧ s'.sched.cron.entries.map Entry.id = [1] := by
  have hserved : ∃ r₁ s₁, Prog.Runs (execStep plainExternals SureCarefulStep)
      (Request.handle plainExternals ⟨0, ""⟩ (.stopTask 1)) oneTaskState r₁ s₁ ∧
    ∃ r s, Prog.Runs (execStep plainExternals SureCarefulStep)
      (Request.handle plainExternals ⟨0, ""⟩ (.startTask 1)) s₁ r s ∧
    ∃ s', Prog.Runs (execStep plainExternals SureCarefulStep) Gonitor.Task.start (State.boot s.db 0)
      () s' ∧
    s.sched.cron.entries.map Entry.id = [2] ∧ s.sched.taskList.keys = [1] ∧
    (∃ row, s.db.task.rows = [row] ∧ row.nodeID = 0) ∧ s'.sched.cron.entries.map Entry.id = [1] := by
    refine ⟨?_, ?_, ?stops, ?_, ?_, ?starts, ?_, ?restarts, ?_⟩
    case stops =>
      iterate 8 apply Prog.Runs.op ⟨{}, ⟨rfl, trivial⟩, rfl⟩
      exact .pure _ _
    case starts =>
      iterate 7 apply Prog.Runs.op ⟨{}, ⟨rfl, trivial⟩, rfl⟩
      exact .pure _ _
    case restarts =>
      iterate 5 apply Prog.Runs.op ⟨{}, ⟨rfl, trivial⟩, rfl⟩
      exact .pure _ _
    exact ⟨rfl, rfl, ⟨_, rfl, rfl⟩, rfl⟩
  obtain ⟨r₁, s₁, hstops, r, s, hstarts, s', hrestarts, hentries, hkeys, ⟨row, hrows, hlocal⟩, hentries'⟩ :=
    hserved
  have hmany : ServesMany plainExternals SureCarefulStep TaskRequest oneTaskState s :=
    .tail (.single ⟨.stopTask 1, r₁, rfl, ⟨0, ""⟩, hstops⟩) ⟨.startTask 1, r, rfl, ⟨0, ""⟩, hstarts⟩
  refine ⟨s, ⟨oneTaskState, oneTaskState_sureCareful, hmany⟩, hentries, hkeys, ?_, s', hrestarts,
    hentries'⟩
  intro t row' hrow'
  have hmem : row' ∈ s.db.task.rows := (Table.mem_of_byId hrow').1
  rw [hrows, List.mem_singleton] at hmem
  exact ⟨.inl (hmem ▸ hlocal), rfl⟩

/-- After the restart the task is scheduled as before. -/
theorem restart_keeps_schedule_startedAgain : ∃ s s',
    Reachable plainExternals SureCarefulStep TaskRequest s ∧
    Prog.Runs (execStep plainExternals SureCarefulStep) Gonitor.Task.start (State.boot s.db 0) () s' ∧
    s.sched.cron.entries.map Entry.id = [2] ∧ s'.sched.cron.entries.map Entry.id = [1] ∧
    s'.sched.taskList.keys.Perm [1] := by
  obtain ⟨s, hreach, hentries, hkeys, hplaceable, s', hrestart, hentries'⟩ := oneTask_startedAgain
  refine ⟨s, s', hreach, hrestart, hentries, hentries', ?_⟩
  rw [← hkeys]
  exact (restart_keeps_schedule noDbFailure_sureCarefulStep careful_sureCarefulStep hreach
    (fun t row hrow _ => hplaceable t row hrow) hrestart).1

end Scheduled

end Gonitor.Integrity
