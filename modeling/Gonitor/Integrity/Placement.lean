import Gonitor.Integrity.Validity
import Gonitor.Requests.TaskUpdates

/-!
# Four Ways to Schedule a Task

Whether the master schedules a task is decided when the task is added (`AddTask`, through
`SyncTaskToNode`), edited (`EditTask`, through `IsLocalTask`), started (`StartTask`) and when the
server starts.  Each path is specified for a state in which the database answers; then the four
answers are compared.

`SyncTaskToNode` takes a node that cannot be found for an error, the others for the master.

## Main Results

- `scheduling_paths_agree_iff`: when the four paths decide alike.
- `missing_node_disagrees`: a task of a node that is not there is scheduled by three of them.
-/

namespace Gonitor.Integrity

open Gonitor.Model Gonitor.Server Gonitor.Controller Gonitor.Requests AtomicProgram SoftDelete

/-! ## Decisions -/

/-- The task is in `Manager.TaskList`. -/
def View.Scheduled (v : View) (taskId : Int) : Prop := (v.taskList.lookup taskId).isSome = true

/-- The task has no node, or its node is there and is the master. -/
def OnMaster (nodes : Table Node) (nodeID : Int) : Prop :=
  nodeID = 0 ∨ ∃ node, nodes.byId nodeID = some node ∧ node.isMaster = true

/-- The payload that leaves a task as it is. -/
def unchanged (row : Task) : TaskMutationPayload := (exportTaskItem row).toTaskMutationPayload

theorem isLocal_of_onMaster {v : View} {nodeID : Int} (h : OnMaster v.nodes nodeID) :
    v.IsLocal nodeID := by
  rcases h with hzero | ⟨node, hnode, hmaster⟩
  · exact .inl hzero
  · refine .inr fun node' hnode' => ?_
    rw [hnode, Option.some.injEq] at hnode'
    exact hnode' ▸ hmaster

theorem not_scheduled_iff {v : View} {taskId : Int} :
    ¬ View.Scheduled v taskId ↔ v.taskList.lookup taskId = none := by
  simp [View.Scheduled]

theorem scheduled_schedule (v : View) {taskId : Int} {row : Task} (hid : row.id = taskId) :
    View.Scheduled (v.schedule taskId row) taskId := by
  rw [View.Scheduled, View.schedule, hid, AList.lookup_insert]
  rfl

theorem not_scheduled_unschedule (v : View) (taskId : Int) :
    (v.unschedule taskId).taskList.lookup taskId = none := by
  unfold View.unschedule
  split
  · assumption
  · exact AList.lookup_erase _ _

section Paths

variable {ext : Externals} {K : State → Op → Choice → Prop}

/-- `Manager.AddTask`, for an enabled, live task. -/
theorem managerAddTask_decides (hsure : NoDbFailure K) {taskId : Int} {row : Task} {s : State}
    (hrow : s.view.tasks.byId taskId = some row) (henabled : row.isDisable = false) :
    Ensures ext K (Gonitor.Task.addTask taskId) (fun _ s' =>
      View.Scheduled s'.view taskId ↔ View.Scheduled s.view taskId ∨ Places ext s.view row) s := by
  refine (addTask_exact hsure taskId s).mono ?_
  rintro r s' ⟨hlisted, hplaced⟩
  have hid : row.id = taskId := (Table.mem_of_byId hrow).2.1
  by_cases hsched : View.Scheduled s.view taskId
  · -- a task that is scheduled stays so
    rw [hlisted hsched]
    simp [hsched]
  · obtain ⟨hyes, hno⟩ := hplaced row (not_scheduled_iff.mp hsched) hrow
    by_cases hplaces : Places ext s.view row
    · rw [(hyes henabled hplaces).2]
      simp only [scheduled_schedule _ hid, hplaces, or_true]
    · rw [hno (.inr hplaces)]
      simp [hplaces]

/-- `SyncTaskToNode`, for an enabled, live task that is not scheduled yet: the node has to be
    there. -/
theorem syncTaskToNode_decides (hsure : NoDbFailure K) {taskId : Int} {row : Task} {s : State}
    (hrow : s.view.tasks.byId taskId = some row) (henabled : row.isDisable = false)
    (hnone : s.view.taskList.lookup taskId = none) :
    Ensures ext K (syncTaskToNode taskId) (fun _ s' =>
      View.Scheduled s'.view taskId ↔
        OnMaster s.view.nodes row.nodeID ∧ ext.cronParse row.schedule = true) s := by
  have hadd : ∀ s₁ : State, s₁.view = s.view → OnMaster s.view.nodes row.nodeID →
      Ensures ext K (Gonitor.Task.addTask taskId) (fun _ s' => View.Scheduled s'.view taskId ↔
        OnMaster s.view.nodes row.nodeID ∧ ext.cronParse row.schedule = true) s₁ := by
    intro s₁ h₁ hmaster
    rw [← h₁] at hrow hnone hmaster ⊢
    refine (managerAddTask_decides hsure hrow henabled).mono fun _ s' h => ?_
    rw [h, View.Scheduled, hnone]
    simp [Places, hmaster, isLocal_of_onMaster hmaster]
  have hrest : ∀ s₁ : State, s₁.view = s.view → ¬ OnMaster s.view.nodes row.nodeID →
      (View.Scheduled s₁.view taskId ↔
        OnMaster s.view.nodes row.nodeID ∧ ext.cronParse row.schedule = true) := by
    intro s₁ h₁ hother
    rw [h₁, View.Scheduled, hnone]
    simp [hother]
  refine (findTask_spec taskId s).bind ?_
  rintro r s₁ ⟨h₁, hfound, hmissing⟩
  cases r with
  | error err =>
    rw [hmissing err rfl hsure] at hrow
    cases hrow
  | ok taskModel =>
    have hsame := hfound taskModel rfl
    rw [hrow, Option.some.injEq] at hsame
    subst hsame
    dsimp only
    split
    · -- a task without a node
      rename_i hzero
      exact hadd s₁ h₁ (.inl hzero)
    · rename_i hne
      refine (findNode_exact .syncTaskToNode row.nodeID s₁).bind ?_
      rintro r s₂ ⟨h₂, hnode, hgone⟩
      rw [h₁] at h₂ hnode hgone
      cases r with
      | error err =>
        -- a node that is not there is an error here
        refine Ensures.pure (hrest s₂ h₂ ?_)
        rintro (hzero | ⟨node, hnode', -⟩)
        · exact hne hzero
        · rw [hgone err rfl hsure] at hnode'
          cases hnode'
      | ok nodeModel =>
        have hthere := hnode nodeModel rfl
        dsimp only
        split
        · rename_i hmaster
          exact hadd s₂ h₂ (.inr ⟨nodeModel, hthere, hmaster⟩)
        · rename_i hother
          refine Ensures.pure (hrest s₂ h₂ ?_)
          rintro (hzero | ⟨node, hnode', hmaster⟩)
          · exact hne hzero
          · rw [hthere, Option.some.injEq] at hnode'
            exact hother (hnode' ▸ hmaster)

/-- Adding a task with the payload of `row`. -/
theorem addTask_decides (hsure : NoDbFailure K) (caller : Caller) {row : Task} {s : State}
    (henabled : row.isDisable = false) (hnone : s.view.taskList.lookup s.view.tasks.nextId = none) :
    Ensures ext K (Controller.addTask ext caller (.ok (unchanged row))) (fun _ s' =>
      View.Scheduled s'.view s.view.tasks.nextId ↔
        Accepted ext s.view.tasks 0 (unchanged row) ∧ OnMaster s.view.nodes row.nodeID ∧
          ext.cronParse row.schedule = true) s := by
  refine (validateTaskMutationPayload_spec 0 (unchanged row) s).bind ?_
  rintro r s₁ ⟨h₁, haccepted, hrefused⟩
  cases r with
  | some err =>
    refine Ensures.pure ?_
    rw [h₁, View.Scheduled, hnone]
    simp [hrefused (by simp) hsure]
  | none =>
    have hok := haccepted rfl
    refine (createTask_spec _ s₁).bind ?_
    rintro _ s₂ (⟨err, rfl, -, hfailed⟩ | ⟨now, rfl, h₂, -⟩)
    · exact absurd hsure hfailed
    · rw [h₁] at h₂
      have hnew : s₂.view.tasks.byId s.view.tasks.nextId =
          some (s.view.tasks.inserted ((unchanged row).apply { toStamps := Base.zero }).withDefaults
            now) := by
        rw [h₂, Table.byId_create, if_pos rfl]
      have hfree : s₂.view.taskList.lookup s.view.tasks.nextId = none := by
        rw [h₂]
        exact hnone
      have hid : (s₁.view.tasks.inserted
          ((unchanged row).apply { toStamps := Base.zero }).withDefaults now).id =
          s.view.tasks.nextId := by
        rw [h₁]
        rfl
      dsimp only
      rw [hid]
      refine (syncTaskToNode_decides hsure hnew henabled hfree).bind fun r s₃ h₃ => ?_
      have hdecided : View.Scheduled s₃.view s.view.tasks.nextId ↔
          Accepted ext s.view.tasks 0 (unchanged row) ∧ OnMaster s.view.nodes row.nodeID ∧
            ext.cronParse row.schedule = true := by
        rw [h₃, h₂]
        simp only [hok, true_and]
        rfl
      cases r with
      | error err => exact Ensures.pure hdecided
      | ok _ =>
        refine (Ensures.of_plain (logged_uses _ _ _ _) s₃).mono fun _ s₄ h₄ => ?_
        rw [h₄]
        exact hdecided

/-- The table after a live row has been saved as it is. -/
theorem byId_resaved {tasks tasks' : Table Task} {taskId : Int} {row : Task} {now : Time}
    (hrow : tasks.byId taskId = some row) (hsave : tasks.save row now = some tasks') :
    tasks'.byId taskId = some (Table.saved row now) := by
  obtain ⟨-, hid, hlive⟩ := Table.mem_of_byId hrow
  rw [Table.byId_save hsave hlive, if_pos hid.symm]

/-- What `EditTask` does once it has saved the row as it was: the task leaves the schedule, and
    comes back if it is to be placed. -/
theorem editSaved_decides (hsure : NoDbFailure K) (caller : Caller) {row : Task} {s : State}
    {now : Time} (hrow : s.view.tasks.byId row.id = some (Table.saved row now))
    (henabled : row.isDisable = false) :
    Ensures ext K (editSaved caller row (unchanged row)) (fun _ s' =>
      View.Scheduled s'.view row.id ↔ Places ext s.view row) s := by
  refine (deleteTask_spec row.id s).bind ?_
  intro _ s₁ h₁
  obtain ⟨htasks₁, hnodes₁⟩ : s₁.view.tasks = s.view.tasks ∧ s₁.view.nodes = s.view.nodes := by
    rw [h₁]
    unfold View.unschedule
    split <;> exact ⟨rfl, rfl⟩
  have hfree : s₁.view.taskList.lookup row.id = none := by
    rw [h₁]
    exact not_scheduled_unschedule _ _
  -- the nodes are the same, so the answer is the same
  have hlocal₁ : s₁.view.IsLocal row.nodeID ↔ s.view.IsLocal row.nodeID := by
    simp only [View.IsLocal, hnodes₁]
  have hdone : ∀ s' : State, (View.Scheduled s'.view row.id ↔ Places ext s.view row) →
      Ensures ext K (editTaskDone caller row (unchanged row)) (fun _ s'' =>
        View.Scheduled s''.view row.id ↔ Places ext s.view row) s' := by
    intro s' h
    refine (Ensures.of_plain (logged_uses _ _ _ _) s').mono fun _ s'' hview => ?_
    rwa [hview]
  refine (controllerIsLocalTask_exact hsure row s₁).bind ?_
  rintro isLocal s₂ ⟨h₂, hlocal⟩
  split
  · -- the manager decides, on the row as it has been saved
    have hrow₂ : s₂.view.tasks.byId row.id = some (Table.saved row now) := by
      rw [h₂, htasks₁]
      exact hrow
    refine (managerAddTask_decides hsure hrow₂ henabled).bind fun r s₃ h₃ => ?_
    have hdecided : View.Scheduled s₃.view row.id ↔ Places ext s.view row := by
      rw [h₃, h₂, View.Scheduled, hfree]
      simp only [Option.isSome_none, Bool.false_eq_true, false_or]
      exact and_congr_left fun _ => hlocal₁
    cases r with
    | error err => exact Ensures.pure hdecided
    | ok _ => exact hdone s₃ hdecided
  · -- the task is enabled, so it is not local
    rename_i hno
    apply hdone
    have hother : ¬ s.view.IsLocal row.nodeID := by
      intro hyes
      refine hno ⟨hlocal.mpr (hlocal₁.mpr hyes), ?_⟩
      rw [henabled]
      exact Bool.false_ne_true
    rw [h₂, View.Scheduled, hfree]
    simp [Places, hother]

/-- Editing a task without changing it. -/
theorem editTask_decides (hsure : NoDbFailure K) (caller : Caller) {row : Task} {s : State}
    (hrow : s.view.tasks.byId row.id = some row) (henabled : row.isDisable = false) :
    Ensures ext K (Controller.editTask ext caller row.id (.ok (unchanged row))) (fun _ s' =>
      (Accepted ext s.view.tasks row.id (unchanged row) →
        (View.Scheduled s'.view row.id ↔ Places ext s.view row)) ∧
      (¬ Accepted ext s.view.tasks row.id (unchanged row) →
        (View.Scheduled s'.view row.id ↔ View.Scheduled s.view row.id))) s := by
  refine (findTask_spec row.id s).bind ?_
  rintro r s₁ ⟨h₁, hfound, hmissing⟩
  cases r with
  | error err =>
    rw [hmissing err rfl hsure] at hrow
    cases hrow
  | ok taskModel =>
    have hsame := hfound taskModel rfl
    rw [hrow, Option.some.injEq] at hsame
    subst hsame
    refine (validateTaskMutationPayload_spec row.id (unchanged row) s₁).bind ?_
    rintro r s₂ ⟨h₂, haccepted, hrefused⟩
    rw [h₁] at h₂ haccepted hrefused
    cases r with
    | some err =>
      have hbad := hrefused (by simp) hsure
      exact Ensures.pure ⟨fun hok => absurd hok hbad, fun _ => by rw [h₂]⟩
    | none =>
      have hok := haccepted rfl
      -- applying the unchanged fields to the row gives the row back
      refine (saveTask_spec row s₂).bind ?_
      rintro _ s₃ (⟨err, rfl, -, hgone⟩ | ⟨now, tasks, rfl, hsave, h₃, -⟩)
      · -- the row is there, so the save goes well
        rw [h₂, hrow] at hgone
        exact absurd (hgone hsure) (by simp)
      · rw [h₂] at hsave h₃
        have hrow₃ : s₃.view.tasks.byId row.id = some (Table.saved row now) := by
          rw [h₃]
          exact byId_resaved hrow hsave
        refine (editSaved_decides hsure caller hrow₃ henabled).mono fun _ s' h => ?_
        have hplaces : Places ext s₃.view row ↔ Places ext s.view row := by
          simp only [Places, View.IsLocal, h₃]
        exact ⟨fun _ => h.trans hplaces, fun hbad => absurd hok hbad⟩

/-- Starting a task that is enabled already. -/
theorem startTask_decides (hsure : NoDbFailure K) (caller : Caller) {row : Task} {s : State}
    (hrow : s.view.tasks.byId row.id = some row) (henabled : row.isDisable = false) :
    Ensures ext K (Controller.startTask caller row.id) (fun _ s' =>
      View.Scheduled s'.view row.id ↔ View.Scheduled s.view row.id ∨ Places ext s.view row) s := by
  refine (findTask_spec row.id s).bind ?_
  rintro r s₁ ⟨h₁, hfound, hmissing⟩
  cases r with
  | error err =>
    rw [hmissing err rfl hsure] at hrow
    cases hrow
  | ok taskModel =>
    have hsame := hfound taskModel rfl
    rw [hrow, Option.some.injEq] at hsame
    subst hsame
    -- the task is enabled already, so the row is saved as it is
    have hsame : ({ row with isDisable := false } : Task) = row := by
      cases row
      simp only at henabled
      simp [henabled]
    simp only [hsame]
    refine (saveTask_spec row s₁).bind ?_
    rintro _ s₂ (⟨err, rfl, -, hgone⟩ | ⟨now, tasks, rfl, hsave, h₂, -⟩)
    · rw [h₁, hrow] at hgone
      exact absurd (hgone hsure) (by simp)
    · rw [h₁] at hsave h₂
      have hrow₂ : s₂.view.tasks.byId row.id = some (Table.saved row now) := by
        rw [h₂]
        exact byId_resaved hrow hsave
      refine (managerAddTask_decides hsure hrow₂ henabled).bind fun r s₃ h₃ => ?_
      rw [h₂] at h₃
      cases r with
      | error err => exact Ensures.pure h₃
      | ok _ =>
        refine (Ensures.of_plain (logged_uses _ _ _ _) s₃).mono fun _ s₄ h₄ => ?_
        rw [h₄]
        exact h₃

/-- The loop of `Manager.Start`, over any list of tasks. -/
theorem addTasks_decides (hsure : NoDbFailure K) (rows : List Task) {row : Task} {s : State}
    (hrow : s.view.tasks.byId row.id = some row) (henabled : row.isDisable = false) :
    Ensures ext K (Gonitor.Task.addTasks rows) (fun _ s' =>
      View.Scheduled s'.view row.id ↔ View.Scheduled s.view row.id ∨
        ((∃ row' ∈ rows, row'.id = row.id) ∧ Places ext s.view row)) s := by
  induction rows generalizing s with
  | nil => exact Ensures.pure (by simp)
  | cons first rows ih =>
    have hstep : Ensures ext K (Gonitor.Task.addTask first.id) (fun _ s₁ =>
        (s₁.view.tasks = s.view.tasks ∧ s₁.view.nodes = s.view.nodes) ∧
        (View.Scheduled s₁.view row.id ↔ View.Scheduled s.view row.id ∨
          (first.id = row.id ∧ Places ext s.view row))) s := by
      rcases eq_or_ne first.id row.id with heq | hne
      · -- the task itself
        rw [heq]
        refine ((addTask_spec row.id s).and (managerAddTask_decides hsure hrow henabled)).mono ?_
        rintro _ s₁ ⟨hout, h⟩
        refine ⟨?_, by simpa using h⟩
        rcases hout with hview | ⟨row', -, -, -, -, hview⟩ <;> rw [hview] <;> exact ⟨rfl, rfl⟩
      · -- another task takes another place in the list
        refine (addTask_spec first.id s).mono ?_
        rintro _ s₁ (hview | ⟨row', -, hfound, -, -, hview⟩)
        · rw [hview]
          simp [hne]
        · have hid : row'.id = first.id := (Table.mem_of_byId hfound).2.1
          rw [hview]
          refine ⟨⟨rfl, rfl⟩, ?_⟩
          rw [View.Scheduled, View.schedule, hid, AList.lookup_insert_ne hne.symm]
          simp [View.Scheduled, hne]
    refine hstep.bind ?_
    rintro _ s₁ ⟨⟨htasks, hnodes⟩, hfirst⟩
    refine (ih (by rw [htasks]; exact hrow)).mono fun _ s₂ h => ?_
    have hplaces : Places ext s₁.view row ↔ Places ext s.view row := by
      simp only [Places, View.IsLocal, hnodes]
    rw [h, hfirst, hplaces]
    simp only [List.mem_cons, exists_eq_or_imp]
    rw [or_and_right, or_assoc]

/-- A restart on the database. -/
theorem start_decides (hsure : NoDbFailure K) {row : Task} {db : Database} {now : Time}
    (hrow : db.task.byId row.id = some row) (henabled : row.isDisable = false) :
    Ensures ext K Gonitor.Task.start (fun _ s' =>
      View.Scheduled s'.view row.id ↔ Places ext (State.boot db now).view row)
      (State.boot db now) := by
  refine Ensures.op fun c r s₁ hK h₁ => ?_
  have hview := view_of_keepsView (show (Op.db .enabledTasks).KeepsView from trivial) h₁
  obtain ⟨-, rfl, -⟩ := exec_db h₁
  have hok : (DbOp.enabledTasks.exec c ((State.boot db now).clock + c.elapsed)
      (State.boot db now).db).1 = .ok (db.task.find fun t => !t.isDisable) := by
    simp [DbOp.exec, query, hsure _ _ _ hK]
    rfl
  simp only [hok]
  refine (addTasks_decides hsure _ (by rw [hview]; exact hrow) henabled).mono fun _ s' h => ?_
  rw [h, hview]
  have hlisted : ∃ row' ∈ db.task.find fun t => !t.isDisable, row'.id = row.id := by
    obtain ⟨hmem, -, hlive⟩ := Table.mem_of_byId hrow
    refine ⟨row, List.mem_filter.mpr ⟨hmem, ?_⟩, rfl⟩
    simp [hlive, henabled]
  have hempty : ¬ View.Scheduled (State.boot db now).view row.id := by
    rintro ⟨⟩
  simp [hlisted, hempty]

end Paths

/-! ## Comparing the decisions -/

/-- After each of the four paths the task is scheduled, or after none: after adding one like it
    (`s₁`), editing it (`s₂`), starting it (`s₃`), and restarting the server (`s₄`). -/
def PathsAgree (s : State) (row : Task) (s₁ s₂ s₃ s₄ : State) : Prop :=
  (View.Scheduled s₁.view s.db.task.nextId ↔ View.Scheduled s₂.view row.id) ∧
  (View.Scheduled s₂.view row.id ↔ View.Scheduled s₃.view row.id) ∧
  (View.Scheduled s₃.view row.id ↔ View.Scheduled s₄.view row.id)

/-- The four paths, taken from the state `s` for the task `row`. -/
structure FourPaths (ext : Externals) (K : State → Op → Choice → Prop) (s : State) (row : Task)
    (s₁ s₂ s₃ s₄ : State) : Prop where
  add : ∃ caller reply, Prog.Runs (execStep ext K)
    (Controller.addTask ext caller (.ok (unchanged row))) s reply s₁
  edit : ∃ caller reply, Prog.Runs (execStep ext K)
    (Controller.editTask ext caller row.id (.ok (unchanged row))) s reply s₂
  start : ∃ caller reply, Prog.Runs (execStep ext K) (Controller.startTask caller row.id) s reply s₃
  restart : ∃ now, Prog.Runs (execStep ext K) Gonitor.Task.start (State.boot s.db now) () s₄

/-- Four decisions compared: a new task needs `accepted`, `master` and `parsed`; an edit that is
    accepted leads to `places` and any other changes nothing (`scheduled`); starting adds to what is
    scheduled; a restart starts anew. -/
theorem decisions_agree_iff {accepted acceptedEdit master parsed places scheduled edited : Prop}
    (hmaster : master → parsed → places) (hparsed : places → parsed)
    (hyes : acceptedEdit → (edited ↔ places)) (hno : ¬ acceptedEdit → (edited ↔ scheduled)) :
    ((accepted ∧ master ∧ parsed ↔ edited) ∧ (edited ↔ scheduled ∨ places) ∧
        (scheduled ∨ places ↔ places)) ↔
      (master ∧ parsed ∧ accepted ∧ (acceptedEdit ∨ scheduled)) ∨ (¬ places ∧ ¬ scheduled) := by
  by_cases hplaces : places
  · have hparse := hparsed hplaces
    by_cases hedit : acceptedEdit
    · have hedited := hyes hedit
      grind
    · have hedited := hno hedit
      grind
  · -- where the task is not to be placed, a new one like it is not scheduled either
    have hnot : ¬ (master ∧ parsed) := fun h => hplaces (hmaster h.1 h.2)
    by_cases hedit : acceptedEdit
    · have hedited := hyes hedit
      grind
    · have hedited := hno hedit
      grind

/-- **When the scheduling paths agree**: for every state between requests and every live, enabled
    task, where the database does not fail, the four paths decide alike if and only if the task can
    be scheduled by all (the node is the master and is there, cron parses the schedule, the
    validation accepts the task anew, and accepts the edit unless the task is scheduled already), or
    by none (it is not local or not parsed) and is not scheduled now. -/
theorem scheduling_paths_agree_iff {ext : Externals} {K : State → Op → Choice → Prop}
    {s s₁ s₂ s₃ s₄ : State} {row : Task} (h : Reachable ext AnyStep TaskOrNodeRequest s)
    (hrow : s.db.task.byId row.id = some row) (henabled : row.isDisable = false)
    (hsure : NoDbFailure K) (hpaths : FourPaths ext K s row s₁ s₂ s₃ s₄) :
    PathsAgree s row s₁ s₂ s₃ s₄ ↔
      (OnMaster s.db.node row.nodeID ∧ ext.cronParse row.schedule = true ∧
        Accepted ext s.db.task 0 (unchanged row) ∧
        (Accepted ext s.db.task row.id (unchanged row) ∨ View.Scheduled s.view row.id)) ∨
      (¬ Places ext s.view row ∧ ¬ View.Scheduled s.view row.id) := by
  obtain ⟨⟨c₁, r₁, hadd⟩, ⟨c₂, r₂, hedit⟩, ⟨c₃, r₃, hstart⟩, now, hrestart⟩ := hpaths
  have h₁ := hadd.post (addTask_decides hsure c₁ henabled (reachable_healthy h).lookup_nextId)
  obtain ⟨hyes, hno⟩ := hedit.post (editTask_decides hsure c₂ hrow henabled)
  have h₃ := hstart.post (startTask_decides hsure c₃ hrow henabled)
  have h₄ : View.Scheduled s₄.view row.id ↔ Places ext s.view row :=
    hrestart.post (start_decides hsure hrow henabled)
  have hmaster : OnMaster s.db.node row.nodeID → ext.cronParse row.schedule = true →
      Places ext s.view row := fun hm hparse => ⟨isLocal_of_onMaster hm, hparse⟩
  have hparse : Places ext s.view row → ext.cronParse row.schedule = true := And.right
  have h₁' : View.Scheduled s₁.view s.db.task.nextId ↔
      Accepted ext s.db.task 0 (unchanged row) ∧ OnMaster s.db.node row.nodeID ∧
        ext.cronParse row.schedule = true := h₁
  have hyes' : Accepted ext s.db.task row.id (unchanged row) →
      (View.Scheduled s₂.view row.id ↔ Places ext s.view row) := hyes
  have hno' : ¬ Accepted ext s.db.task row.id (unchanged row) →
      (View.Scheduled s₂.view row.id ↔ View.Scheduled s.view row.id) := hno
  rw [PathsAgree, h₁', h₃, h₄]
  exact decisions_agree_iff hmaster hparse hyes' hno'

/-- An enabled task of the node `nodeID`. -/
def taskOfNode (nodeID : Int) : Task :=
  { somePayload.apply { toStamps := ⟨1, 0, 0, none⟩ } with nodeID := nodeID, priority := 1 }

/-- A database with this task, and without nodes. -/
def databaseWith (nodeID : Int) : Database :=
  { emptyDatabase with task := Table.empty.create (taskOfNode nodeID) 0 }

theorem accepted_unchanged (nodeID : Int) (taskID : Int) :
    Accepted plainExternals (databaseWith nodeID).task taskID (unchanged (taskOfNode nodeID)) := by
  refine ⟨rfl, rfl, ?_⟩
  intro hpos
  cases hpos

/-- At start-up `Manager.AddTask` cannot read the row, so the task is not scheduled. -/
theorem databaseWith_startedUp (nodeID : Int) :
    StartedUp plainExternals AnyStep (State.boot (databaseWith nodeID) 0) := by
  refine ⟨databaseWith nodeID, 0, .op ⟨{}, trivial, rfl⟩ (.op ⟨{}, trivial, rfl⟩ ?_)⟩
  exact .op ⟨{ fail := true }, trivial, rfl⟩ (.pure _ _)

/-- Each of the four paths can be taken, whether the task has no node or one that is not there. -/
theorem fourPaths_exist {nodeID : Int} (h : nodeID = 0 ∨ nodeID = 7) : ∃ s₁ s₂ s₃ s₄,
    FourPaths plainExternals (fun _ _ c => c.fail = false) (State.boot (databaseWith nodeID) 0)
      (taskOfNode nodeID) s₁ s₂ s₃ s₄ := by
  have hadd : ∃ reply s', Prog.Runs (execStep plainExternals fun _ _ c => c.fail = false)
      (Controller.addTask plainExternals ⟨0, ""⟩ (.ok (unchanged (taskOfNode nodeID))))
      (State.boot (databaseWith nodeID) 0) reply s' := by
    rcases h with rfl | rfl <;> exact ⟨_, _, runs_of_choices (List.replicate 7 {}) (by simp) rfl⟩
  have hedit : ∃ reply s', Prog.Runs (execStep plainExternals fun _ _ c => c.fail = false)
      (Controller.editTask plainExternals ⟨0, ""⟩ 1 (.ok (unchanged (taskOfNode nodeID))))
      (State.boot (databaseWith nodeID) 0) reply s' := by
    rcases h with rfl | rfl <;> exact ⟨_, _, runs_of_choices (List.replicate 10 {}) (by simp) rfl⟩
  have hstart : ∃ reply s', Prog.Runs (execStep plainExternals fun _ _ c => c.fail = false)
      (Controller.startTask ⟨0, ""⟩ 1) (State.boot (databaseWith nodeID) 0) reply s' := by
    rcases h with rfl | rfl <;> exact ⟨_, _, runs_of_choices (List.replicate 8 {}) (by simp) rfl⟩
  have hrestart : ∃ s', Prog.Runs (execStep plainExternals fun _ _ c => c.fail = false)
      Gonitor.Task.start (State.boot (databaseWith nodeID) 0) () s' := by
    rcases h with rfl | rfl <;> exact ⟨_, runs_of_choices (List.replicate 6 {}) (by simp) rfl⟩
  obtain ⟨r₁, s₁, h₁⟩ := hadd
  obtain ⟨r₂, s₂, h₂⟩ := hedit
  obtain ⟨r₃, s₃, h₃⟩ := hstart
  obtain ⟨s₄, h₄⟩ := hrestart
  exact ⟨s₁, s₂, s₃, s₄, ⟨_, r₁, h₁⟩, ⟨_, r₂, h₂⟩, ⟨_, r₃, h₃⟩, ⟨0, h₄⟩⟩

/-- A task of a node that is not there: an edit schedules it, adding one like it does not. -/
theorem missing_node_disagrees : ¬ ∀ (K : State → Op → Choice → Prop) (s : State) (row : Task)
    (s₁ s₂ s₃ s₄ : State), Reachable plainExternals AnyStep TaskOrNodeRequest s →
    s.db.task.byId row.id = some row → row.isDisable = false → NoDbFailure K →
    FourPaths plainExternals K s row s₁ s₂ s₃ s₄ → PathsAgree s row s₁ s₂ s₃ s₄ := by
  intro hagree
  have hreach : Reachable plainExternals AnyStep TaskOrNodeRequest
      (State.boot (databaseWith 7) 0) := (databaseWith_startedUp 7).reachable
  obtain ⟨s₁, s₂, s₃, s₄, hpaths⟩ := fourPaths_exist (.inr rfl : (7 : Int) = 0 ∨ (7 : Int) = 7)
  have hsure : NoDbFailure fun _ _ c => c.fail = false := fun _ _ _ hok => hok
  obtain ⟨hsame, -⟩ := hagree _ _ (taskOfNode 7) s₁ s₂ s₃ s₄ hreach rfl rfl hsure hpaths
  obtain ⟨⟨c₁, r₁, hadd⟩, ⟨c₂, r₂, hedit⟩, -, -⟩ := hpaths
  have henabled : (taskOfNode 7).isDisable = false := rfl
  have hno := hadd.post (addTask_decides hsure c₁ henabled rfl)
  have hyes := (hedit.post (editTask_decides hsure c₂ rfl henabled)).1 (accepted_unchanged 7 _)
  have hplaces : Places plainExternals (State.boot (databaseWith 7) 0).view (taskOfNode 7) :=
    ⟨isLocal_of_missing rfl, rfl⟩
  obtain ⟨-, hmaster, -⟩ := hno.mp (hsame.mpr (hyes.mpr hplaces))
  rcases hmaster with hzero | ⟨node, hnode, -⟩
  · exact absurd hzero (by decide)
  · cases hnode

/-- A task without a node: all four paths schedule it. -/
theorem scheduling_paths_agree_oneTask : ∃ s₁ s₂ s₃ s₄,
    PathsAgree (State.boot (databaseWith 0) 0) (taskOfNode 0) s₁ s₂ s₃ s₄ := by
  obtain ⟨s₁, s₂, s₃, s₄, hpaths⟩ := fourPaths_exist (.inl rfl : (0 : Int) = 0 ∨ (0 : Int) = 7)
  refine ⟨s₁, s₂, s₃, s₄, ?_⟩
  refine (scheduling_paths_agree_iff (databaseWith_startedUp 0).reachable rfl rfl
    (fun _ _ _ hok => hok) hpaths).mpr (.inl ?_)
  exact ⟨.inl rfl, rfl, accepted_unchanged 0 _, .inl (accepted_unchanged 0 _)⟩

end Gonitor.Integrity
