import Gonitor.Integrity.Writers
import Gonitor.Integrity.Scheduling

/-!
# Stored Tasks Are Well Formed

Whoever writes the task table, the live rows satisfy the checks of the validation, the existence
of the dependency apart.  `ImportTasks` validates its items without their dependencies and sets
these afterwards, and `Create` replaces a priority of 0; the predicate survives both.

## Main Results

- `stored_tasks_wellFormed`: every live row is well formed in every state reached from an empty
  task table, and `taskInstance.start` accepts it.
-/

namespace Gonitor.Integrity

open Gonitor.Model Gonitor.Server Gonitor.Controller Gonitor.Requests AtomicProgram SoftDelete

/-! ## Well-formed rows -/

/-- The checks of `validateTaskMutationPayload`, the existence of the dependency apart. -/
structure WellFormed (ext : Externals) (row : Task) : Prop where
  name : 1 ≤ row.name.utf8ByteSize ∧ row.name.utf8ByteSize ≤ 255
  command : row.command ≠ ""
  execType : row.execType = "cmd" ∨ row.execType = "http" ∨ row.execType = "file"
  priority : 0 ≤ row.priority ∧ row.priority ≤ 3
  retryTimes : 0 ≤ row.retryTimes
  retryInterval : 0 ≤ row.retryInterval
  timeout : 0 ≤ row.timeout
  dependsOnTaskID : 0 ≤ row.dependsOnTaskID
  notSelf : row.dependsOnTaskID ≠ row.id
  schedule : ext.parseSchedule row.schedule = true
  assert : row.assert = "" ∨ ext.acceptsScript row.assert = true
  resultHandler : row.resultHandler = "" ∨ ext.acceptsScript row.resultHandler = true

/-- A text that is empty or else accepted, as the code asks for it. -/
theorem empty_or {text : String} {P : Prop} (h : text.utf8ByteSize > 0 → P) : text = "" ∨ P := by
  rcases Nat.eq_zero_or_pos text.utf8ByteSize with hzero | hpos
  · exact .inl (String.utf8ByteSize_eq_zero_iff.mp hzero)
  · exact .inr (h hpos)

/-- An accepted payload makes a well-formed row, under any key but that of its dependency. -/
theorem wellFormed_apply {ext : Externals} {payload : TaskMutationPayload} {row : Task}
    (hfields : payloadFieldError payload = none)
    (hscripts : payloadScriptError ext payload = none) (hself : payload.dependsOnTaskID ≠ row.id) :
    WellFormed ext (payload.apply row) := by
  obtain ⟨hname, hcommand, htype, hprio, htimes, hinterval, htimeout, hdep⟩ :=
    payloadFieldError_eq_none.mp hfields
  obtain ⟨hschedule, hassert, hhandler⟩ := payloadScriptError_eq_none.mp hscripts
  exact ⟨hname, fun hempty => hcommand (String.utf8ByteSize_eq_zero_iff.mpr hempty), htype, hprio,
    htimes, hinterval, htimeout, hdep, hself, hschedule, empty_or hassert, empty_or hhandler⟩

/-- The key and the configuration decide whether a row is well formed. -/
theorem WellFormed.congr {ext : Externals} {row row' : Task} (h : WellFormed ext row)
    (hid : row'.id = row.id) (hconf : row'.configuration = row.configuration) :
    WellFormed ext row' := by
  rw [Task.eq_of_configuration hconf.symm]
  exact ⟨h.name, h.command, h.execType, h.priority, h.retryTimes, h.retryInterval, h.timeout,
    h.dependsOnTaskID, hid ▸ h.notSelf, h.schedule, h.assert, h.resultHandler⟩

/-- The default that `Create` stores for a priority of 0 is a valid one. -/
theorem WellFormed.withDefaults {ext : Externals} {row : Task} (h : WellFormed ext row) :
    WellFormed ext row.withDefaults := by
  refine { h with priority := ?_ }
  simp only [Task.withDefaults]
  split
  · decide
  · exact h.priority

/-- All live rows are well formed. -/
def AllWellFormed (ext : Externals) (tasks : Table Task) : Prop :=
  ∀ i row, tasks.byId i = some row → WellFormed ext row

/-- What a handler makes of a well-formed row is well formed. -/
theorem WellFormed.rewritten {ext : Externals} {tasks : Table Task} {row row' : Task}
    (h : WellFormed ext row) (hpos : 0 < row.id) (hrewritten : Rewritten ext tasks row row') :
    row'.id = row.id ∧ live row' = live row ∧ WellFormed ext row' := by
  cases hrewritten with
  | edited haccepted =>
    refine ⟨rfl, rfl, wellFormed_apply haccepted.fields haccepted.scripts fun hself => ?_⟩
    -- the validation refuses a dependency on the task itself
    exact (haccepted.dependency (by omega)).1 ⟨hpos, hself⟩
  | switched b =>
    refine ⟨rfl, rfl, ?_⟩
    exact ⟨h.name, h.command, h.execType, h.priority, h.retryTimes, h.retryInterval, h.timeout,
      h.dependsOnTaskID, h.notSelf, h.schedule, h.assert, h.resultHandler⟩
  | @linked dependencyID dependency hfound hne =>
    obtain ⟨hmem, hid, -⟩ := Table.mem_of_byId hfound
    refine ⟨rfl, rfl, { h with dependsOnTaskID := ?_, notSelf := hne }⟩
    exact hid ▸ Int.le_of_lt (tasks.ids_pos _ hmem)

/-- One change keeps the live rows well formed. -/
theorem AllWellFormed.change {ext : Externals} {K : State → Op → Choice → Prop}
    {nodes : Table Node} {tasks tasks' : Table Task} (h : AllWellFormed ext tasks)
    (hchange : TaskChange ext K nodes tasks tasks') : AllWellFormed ext tasks' := by
  cases hchange with
  | @created payload now haccepted _ =>
    intro i row hrow
    rw [Table.byId_create] at hrow
    split at hrow
    · cases hrow
      -- the dependency of a new task is there already, so it is not the new task
      have hself : payload.dependsOnTaskID ≠ tasks.nextId := by
        intro heq
        have hpos := tasks.nextId_pos
        obtain ⟨dependency, hdependency⟩ := (haccepted.dependency (by omega)).2
        have hlt := Table.rowId_lt_nextId (Table.byId_eq_some.mp hdependency).1
        omega
      have hnew : WellFormed ext (payload.apply { toStamps := ⟨tasks.nextId, now, now, none⟩ }) :=
        wellFormed_apply haccepted.fields haccepted.scripts hself
      exact hnew.withDefaults.congr rfl rfl
    · exact h i row hrow
  | @saved row row' now _ hfound hrewritten _ hsave =>
    obtain ⟨hmem, -, hlive⟩ := Table.mem_of_byId hfound
    obtain ⟨hid, hlive', hnew⟩ := (h _ row hfound).rewritten (tasks.ids_pos row hmem) hrewritten
    intro i x hx
    rw [Table.byId_save hsave (hlive'.trans hlive)] at hx
    split at hx
    · cases hx
      exact hnew.congr rfl rfl
    · exact h i x hx
  | @deleted id now _ =>
    intro i x hx
    rw [Table.byId_delete] at hx
    split at hx
    · cases hx
    · exact h i x hx

/-! ## In every run -/

/-- The task table has no rows. -/
def NoTasks (db : Database) : Prop := db.task.rows = []

theorem byId_of_noTasks {db : Database} (h : NoTasks db) (i : Int) : db.task.byId i = none := by
  unfold NoTasks at h
  unfold Table.byId Table.first
  rw [h]
  rfl

/-- Every live row is well formed, from an empty task table on. -/
theorem reachable_allWellFormed {ext : Externals} {K : State → Op → Choice → Prop} {s : State}
    (h : ReachableFrom NoTasks ext K TaskOrNodeRequest s) : AllWellFormed ext s.db.task := by
  refine h.tasks_invariant ?_ ?_
  · intro db hdb i row hrow
    rw [byId_of_noTasks hdb] at hrow
    cases hrow
  · exact fun nodes tasks tasks' htasks hchange => htasks.change hchange

/-- **Stored tasks are well formed and schedulable**: in every state reached from an empty task
    table by task and node requests, whatever fails, every live row is well formed; so, where cron parses
    what `CheckTaskSchedule` parses, `taskInstance.start` never fails for it, and `Manager.AddTask`
    puts it on the schedule if it is enabled, local and not scheduled yet and the database answers. -/
theorem stored_tasks_wellFormed {ext : Externals} {s : State}
    (hcron : ∀ spec, ext.parseSchedule spec = true → ext.cronParse spec = true)
    (h : ReachableFrom NoTasks ext AnyStep TaskOrNodeRequest s) (i : Int) (row : Task)
    (hrow : s.db.task.byId i = some row) :
    WellFormed ext row ∧
    (∀ s₁ r s₂, Prog.Runs (execStep ext AnyStep) (Gonitor.Task.startInstance i row) s₁ r s₂ →
      r = .ok ()) ∧
    (row.isDisable = false → s.view.IsLocal row.nodeID → s.sched.taskList.lookup i = none →
      ∀ K, NoDbFailure K → ∀ r s',
        Prog.Runs (execStep ext K) (Gonitor.Task.addTask i) s r s' →
        r = .ok () ∧ (s'.sched.taskList.lookup i).isSome = true) := by
  have hwell := reachable_allWellFormed h i row hrow
  have hparse : ext.cronParse row.schedule = true := hcron _ hwell.schedule
  refine ⟨hwell, fun s₁ r s₂ hrun => ?_, fun henabled hlocal hnone K hsure r s' hrun => ?_⟩
  · rcases hrun.post (startInstance_exact i row s₁) with ⟨-, hr, -⟩ | ⟨hbad, -⟩
    · exact hr
    · rw [hparse] at hbad
      cases hbad
  · obtain ⟨hr, hview⟩ := ((hrun.post (addTask_exact hsure i s)).2 row hnone hrow).1 henabled
      ⟨hlocal, hparse⟩
    refine ⟨hr, ?_⟩
    have hid : row.id = i := (Table.mem_of_byId hrow).2.1
    have hlist : s'.sched.taskList = (s.view.schedule i row).taskList := congrArg View.taskList hview
    rw [hlist, View.schedule, hid, AList.lookup_insert]
    rfl

/-- A payload that every validation accepts. -/
def somePayload : TaskMutationPayload := { name := "backup", command := "tar", execType := "cmd" }

/-- A task is added, but the lookup in `SyncTaskToNode` fails: its row is well formed, and the
    next `Manager.AddTask` puts it on the schedule. -/
theorem stored_tasks_wellFormed_oneTask : ∃ s row s',
    ReachableFrom NoTasks plainExternals AnyStep TaskOrNodeRequest s ∧
    s.db.task.byId 1 = some row ∧ WellFormed plainExternals row ∧
    Prog.Runs (execStep plainExternals (fun _ _ c => c.fail = false)) (Gonitor.Task.addTask 1) s
      (.ok ()) s' ∧
    (s'.sched.taskList.lookup 1).isSome = true := by
  have hserved : ∃ reply s, Prog.Runs (execStep plainExternals AnyStep)
      (Request.handle plainExternals ⟨0, ""⟩ (.addTask (.ok somePayload)))
      (State.boot emptyDatabase 0) reply s ∧
      (∃ row, s.db.task.byId 1 = some row ∧ row.isDisable = false ∧ row.nodeID = 0) ∧
      s.sched.taskList.lookup 1 = none ∧ ∃ r s', Prog.Runs
        (execStep plainExternals (fun _ _ c => c.fail = false)) (Gonitor.Task.addTask 1) s r s' := by
    refine ⟨_, _, .op ⟨{}, trivial, rfl⟩ (.op ⟨{ fail := true }, trivial, rfl⟩ (.pure _ _)),
      ⟨_, rfl, rfl, rfl⟩, rfl, ?_⟩
    exact ⟨_, _, runs_of_choices (List.replicate 4 {}) (by simp) rfl⟩
  obtain ⟨reply, s, hrun, ⟨row, hrow, henabled, hnode⟩, hnone, r, s', hadd⟩ := hserved
  have hreach : ReachableFrom NoTasks plainExternals AnyStep TaskOrNodeRequest s :=
    ⟨emptyDatabase, 0, State.boot emptyDatabase 0, rfl, .op ⟨{}, trivial, rfl⟩ (.pure _ _),
      .single ⟨.addTask (.ok somePayload), reply, .inl rfl, ⟨0, ""⟩, hrun⟩⟩
  obtain ⟨hwell, -, hplaced⟩ := stored_tasks_wellFormed (fun _ _ => rfl) hreach 1 row hrow
  obtain ⟨rfl, hlisted⟩ := hplaced henabled (.inl hnode) hnone _ (fun _ _ _ hok => hok) r s' hadd
  exact ⟨s, row, s', hreach, hrow, hwell, hadd, hlisted⟩

end Gonitor.Integrity
