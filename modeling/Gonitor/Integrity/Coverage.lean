import Gonitor.Integrity.Importing
import Gonitor.Integrity.Placement
import Gonitor.Requests.NodeGuard

/-!
# No Task Is Forgotten

A task that is live, enabled and the master's is to be run by cron, if cron parses its schedule.
Start-up and six handlers see to that, each by code of its own: an edit takes the task off the
schedule and puts it back, a start saves the row before it schedules the task, an import adds rows
and schedules none of them, and a node request can make a task the master's no more.

`Covers` says that the tasks of a set which are to be scheduled are scheduled: in the middle of a
request all but one, between requests all.  `Entered` says that what is scheduled has its cron entry.

## Main Results

- `requests_complete`: every request keeps both, where the database answers.
- `enabled_tasks_entered`: each such task has one cron entry, which runs what is stored.
-/

namespace Gonitor.Integrity

open Gonitor.Model Gonitor.Server Gonitor.Controller Gonitor.Requests AtomicProgram SoftDelete

/-! ## What is to be scheduled -/

/-- The task is live, enabled and the master's, and cron parses its schedule. -/
def View.Demands (ext : Externals) (v : View) (taskId : Int) : Prop :=
  ∃ row, v.tasks.byId taskId = some row ∧ row.isDisable = false ∧ OnMaster v.nodes row.nodeID ∧
    ext.cronParse row.schedule = true

/-- The tasks of the set that are to be scheduled are. -/
def Covers (ext : Externals) (tasks : Int → Prop) (v : View) : Prop :=
  ∀ t, tasks t → View.Demands ext v t → View.Scheduled v t

/-- What is scheduled has its cron entry. -/
structure Entered (v : View) : Prop where
  sound : ScheduleSound v.cron v.taskList
  entry : ∀ t ti, v.taskList.lookup t = some ti → ti.entryId ∈ v.cron.entries.map Entry.id

/-- What is to be scheduled is, and has its cron entry. -/
structure Complete (ext : Externals) (v : View) : Prop where
  entered : Entered v
  covered : Covers ext (fun _ => True) v

section Views

variable {ext : Externals} {K : State → Op → Choice → Prop} {tasks : Int → Prop} {v v' : View}
  {t t' : Int}

@[simp] theorem tasks_unschedule (v : View) (t : Int) : (v.unschedule t).tasks = v.tasks := by
  unfold View.unschedule
  split <;> rfl

@[simp] theorem nodes_unschedule (v : View) (t : Int) : (v.unschedule t).nodes = v.nodes := by
  unfold View.unschedule
  split <;> rfl

/-- Only rows and nodes decide what is to be scheduled. -/
theorem demands_congr (htasks : v'.tasks = v.tasks) (hnodes : v'.nodes = v.nodes) :
    View.Demands ext v' t ↔ View.Demands ext v t := by
  simp only [View.Demands, htasks, hnodes]

/-- More is scheduled, and no more is to be. -/
theorem Covers.grow (h : Covers ext tasks v)
    (hless : ∀ t, tasks t → View.Demands ext v' t → View.Demands ext v t)
    (hmore : ∀ t, tasks t → View.Scheduled v t → View.Scheduled v' t) : Covers ext tasks v' := by
  intro t ht hdemands
  exact hmore t ht (h t ht (hless t ht hdemands))

theorem Covers.but (h : Covers ext (fun _ => True) v) (t : Int) : Covers ext (· ≠ t) v := by
  intro t' _ hdemands
  exact h t' trivial hdemands

/-- The task that was left out is scheduled too, if it is to be. -/
theorem Covers.close (h : Covers ext (· ≠ t) v)
    (ht : View.Demands ext v t → View.Scheduled v t) : Covers ext (fun _ => True) v := by
  intro t' _ hdemands
  rcases eq_or_ne t' t with rfl | hne
  · exact ht hdemands
  · exact h t' hne hdemands

/-! ### The tables -/

theorem Covers.create (h : Covers ext (fun _ => True) v) (row : Task) (now : Time) :
    Covers ext (· ≠ v.tasks.nextId) { v with tasks := v.tasks.create row now } := by
  refine (h.but v.tasks.nextId).grow ?_ fun _ _ hsched => hsched
  rintro t hne ⟨row', hrow', hrest⟩
  rw [Table.byId_create, if_neg hne] at hrow'
  exact ⟨row', hrow', hrest⟩

theorem Covers.save {row : Task} {now : Time} {rows : Table Task} (h : Covers ext (· ≠ t) v)
    (hsave : v.tasks.save row now = some rows) (hid : row.id = t) :
    Covers ext (· ≠ t) { v with tasks := rows } := by
  refine h.grow ?_ fun _ _ hsched => hsched
  rintro t' hne ⟨row', hrow', hrest⟩
  rw [Table.byId_eq_some, Table.row?_save hsave, if_neg (by simpa [hid] using hne)] at hrow'
  exact ⟨row', Table.byId_eq_some.mpr hrow', hrest⟩

theorem Covers.delete (h : Covers ext tasks v) (t : Int) (now : Time) :
    Covers ext tasks { v with tasks := v.tasks.delete t now } := by
  refine h.grow ?_ fun _ _ hsched => hsched
  rintro t' - ⟨row', hrow', hrest⟩
  rw [Table.byId_delete] at hrow'
  split at hrow'
  · cases hrow'
  · exact ⟨row', hrow', hrest⟩

/-! ### The schedule -/

/-- An instance is listed under the id of its task, so one key is erased. -/
theorem unschedule_eq (h : ScheduleSound v.cron v.taskList) {ti : TaskInstance}
    (hti : v.taskList.lookup t = some ti) : v.unschedule t =
      { v with cron := v.cron.remove ti.entryId, taskList := v.taskList.erase t } := by
  rw [View.unschedule, hti]
  simp only [(h.key_eq t ti hti).2, erase_erase_self]

theorem Entered.unschedule (h : Entered v) (t : Int) : Entered (v.unschedule t) := by
  cases hti : v.taskList.lookup t with
  | none =>
    rw [View.unschedule, hti]
    exact h
  | some ti =>
    rw [unschedule_eq h.sound hti]
    refine ⟨h.sound.erase hti, fun t' ti' hti' => ?_⟩
    obtain ⟨hne, hold⟩ := lookup_of_lookup_erase hti'
    -- the entry that is removed is not that of another task
    have hother : ti'.entryId ≠ ti.entryId := by
      intro heq
      exact hne (h.sound.entry_unique t' ti' t ti hold hti heq)
    obtain ⟨x, hx, hid⟩ := List.mem_map.mp (h.entry t' ti' hold)
    refine List.mem_map.mpr ⟨x, ?_, hid⟩
    simp [Cron.remove, hx, hid, hother]

theorem Covers.unschedule (h : Covers ext (· ≠ t) v) (hsound : ScheduleSound v.cron v.taskList) :
    Covers ext (· ≠ t) (v.unschedule t) := by
  refine h.grow (fun t' _ => (demands_congr (by simp) (by simp)).mp) fun t' hne hsched => ?_
  cases hti : v.taskList.lookup t with
  | none =>
    rw [View.unschedule, hti]
    exact hsched
  | some ti =>
    rw [unschedule_eq hsound hti, View.Scheduled, AList.lookup_erase_ne hne]
    exact hsched

/-- `Manager.AddTask` touches the schedule only. -/
theorem addOutcome_tables (h : AddOutcome K t v v') : v'.tasks = v.tasks ∧ v'.nodes = v.nodes := by
  rcases h with rfl | ⟨row, -, -, -, -, rfl⟩ <;> exact ⟨rfl, rfl⟩

theorem Entered.addOutcome (h : Entered v) (hadd : AddOutcome K t v v') : Entered v' := by
  rcases hadd with rfl | ⟨row, hnone, hrow, henabled, -, rfl⟩
  · exact h
  · obtain rfl : row.id = t := (Table.mem_of_byId hrow).2.1
    refine ⟨h.sound.insert hnone henabled, fun t' ti hti => ?_⟩
    have hlookup : (v.taskList.insert row.id ⟨row.id, row, v.cron.nextID⟩).lookup t' = some ti := hti
    simp only [View.schedule, Cron.addJob, List.map_append, List.mem_append]
    rcases eq_or_ne t' row.id with rfl | hne
    · -- the new entry
      rw [AList.lookup_insert, Option.some.injEq] at hlookup
      subst hlookup
      exact .inr (by simp)
    · rw [AList.lookup_insert_ne hne] at hlookup
      exact .inl (h.entry t' ti hlookup)

/-- What is scheduled stays so. -/
theorem scheduled_addOutcome (hadd : AddOutcome K t v v') (h : View.Scheduled v t') :
    View.Scheduled v' t' := by
  rcases hadd with rfl | ⟨row, -, -, -, -, rfl⟩
  · exact h
  · rcases eq_or_ne t' row.id with rfl | hne
    · rw [View.Scheduled, View.schedule, AList.lookup_insert]
      rfl
    · rw [View.Scheduled, View.schedule, AList.lookup_insert_ne hne]
      exact h

theorem Covers.addOutcome (h : Covers ext tasks v) (hadd : AddOutcome K t v v') :
    Covers ext tasks v' := by
  obtain ⟨htasks, hnodes⟩ := addOutcome_tables hadd
  exact h.grow (fun _ _ => (demands_congr htasks hnodes).mp) fun _ _ => scheduled_addOutcome hadd

end Views

/-! ## The functions that schedule -/

section Handlers

variable {ext : Externals} {K : State → Op → Choice → Prop} {s : State} {t : Int}

/-- A program that leaves the view alone leaves it complete. -/
theorem Ensures.complete_of_plain {α : Type} {p : Program α} (hp : p.Uses Plain)
    (h : Complete ext s.view) : Ensures ext K p (fun _ s' => Complete ext s'.view) s :=
  (Ensures.of_plain hp s).mono fun _ _ hview => hview ▸ h

/-- A function that does what `Manager.AddTask` can do, and schedules the task if it is to be, closes
    the gap at the task. -/
theorem Ensures.complete_of_addOutcome {α : Type} {p : Program α} (hentered : Entered s.view)
    (hcovers : Covers ext (· ≠ t) s.view)
    (hout : Ensures ext K p (fun _ s' => AddOutcome K t s.view s'.view) s)
    (hdecides : View.Demands ext s.view t →
      Ensures ext K p (fun _ s' => View.Scheduled s'.view t) s) :
    Ensures ext K p (fun _ s' => Complete ext s'.view) s := by
  by_cases hdemands : View.Demands ext s.view t
  · refine (hout.and (hdecides hdemands)).mono ?_
    rintro _ s' ⟨hadd, hsched⟩
    exact ⟨hentered.addOutcome hadd, (hcovers.addOutcome hadd).close fun _ => hsched⟩
  · refine hout.mono fun _ s' hadd => ?_
    obtain ⟨htasks, hnodes⟩ := addOutcome_tables hadd
    refine ⟨hentered.addOutcome hadd, (hcovers.addOutcome hadd).close fun hlater => ?_⟩
    exact absurd ((demands_congr htasks hnodes).mp hlater) hdemands

theorem managerAddTask_complete (hsure : NoDbFailure K) (hentered : Entered s.view)
    (hcovers : Covers ext (· ≠ t) s.view) :
    Ensures ext K (Gonitor.Task.addTask t) (fun _ s' => Complete ext s'.view) s := by
  apply Ensures.complete_of_addOutcome hentered hcovers (addTask_spec t s)
  rintro ⟨row, hrow, henabled, hmaster, hparse⟩
  refine (managerAddTask_decides hsure hrow henabled).mono fun _ s' h => ?_
  exact h.mpr (.inr ⟨isLocal_of_onMaster hmaster, hparse⟩)

/-- `SyncTaskToNode` does no more than `Manager.AddTask`. -/
theorem syncTaskToNode_spec (t : Int) (s : State) :
    Ensures ext K (syncTaskToNode t) (fun _ s' => AddOutcome K t s.view s'.view) s := by
  have hadd : ∀ s₁ : State, s₁.view = s.view →
      Ensures ext K (Gonitor.Task.addTask t) (fun _ s' => AddOutcome K t s.view s'.view) s₁ := by
    intro s₁ h₁
    rw [← h₁]
    exact addTask_spec t s₁
  refine (findTask_spec t s).bind ?_
  rintro r s₁ ⟨h₁, -⟩
  cases r with
  | error err => exact Ensures.pure (.inl h₁)
  | ok taskModel =>
    dsimp only
    split
    · exact hadd s₁ h₁
    · refine (findNode_exact .syncTaskToNode taskModel.nodeID s₁).bind ?_
      rintro r s₂ ⟨h₂, -⟩
      cases r with
      | error err => exact Ensures.pure (.inl (h₂.trans h₁))
      | ok nodeModel =>
        dsimp only
        split
        · exact hadd s₂ (h₂.trans h₁)
        · exact Ensures.pure (.inl (h₂.trans h₁))

theorem syncTaskToNode_complete (hsure : NoDbFailure K) (hentered : Entered s.view)
    (hcovers : Covers ext (· ≠ t) s.view) (hnone : s.view.taskList.lookup t = none) :
    Ensures ext K (syncTaskToNode t) (fun _ s' => Complete ext s'.view) s := by
  apply Ensures.complete_of_addOutcome hentered hcovers (syncTaskToNode_spec t s)
  rintro ⟨row, hrow, henabled, hmaster, hparse⟩
  exact (syncTaskToNode_decides hsure hrow henabled hnone).mono fun _ s' h => h.mpr ⟨hmaster, hparse⟩

/-! ## The task requests -/

theorem addTask_complete (hsure : NoDbFailure K) (caller : Caller)
    (body : Except String TaskMutationPayload) (h : Complete ext s.view)
    (hnone : s.view.taskList.lookup s.view.tasks.nextId = none) :
    Ensures ext K (Controller.addTask ext caller body) (fun _ s' => Complete ext s'.view) s := by
  unfold Controller.addTask
  cases body with
  | error err => exact Ensures.pure h
  | ok addInfo =>
    refine (Ensures.of_plain (validateTaskMutationPayload_uses ext 0 addInfo) s).bind ?_
    intro r s₁ h₁
    rw [← h₁] at h hnone
    cases r with
    | some err => exact Ensures.pure h
    | none =>
      refine (createTask_spec _ s₁).bind ?_
      rintro _ s₂ (⟨err, rfl, -, hfailed⟩ | ⟨now, rfl, h₂, -⟩)
      · exact absurd hsure hfailed
      · have hid := Table.rowId_inserted s₁.view.tasks
          (addInfo.apply { toStamps := Base.zero }).withDefaults now
        rw [rowId_task] at hid
        dsimp only
        rw [hid]
        have hentered : Entered s₂.view := h₂ ▸ ⟨h.entered.sound, h.entered.entry⟩
        have hcovers : Covers ext (· ≠ s₁.view.tasks.nextId) s₂.view := h₂ ▸ h.covered.create _ now
        have hfree : s₂.view.taskList.lookup s₁.view.tasks.nextId = none := by
          rw [h₂]
          exact hnone
        refine (syncTaskToNode_complete hsure hentered hcovers hfree).bind fun r s₃ h₃ => ?_
        cases r with
        | error err => exact Ensures.pure h₃
        | ok _ => exact Ensures.complete_of_plain (logged_uses _ _ _ _) h₃

/-- `EditTask` from its save on: the task leaves the schedule, and comes back if it is to. -/
theorem editSaved_complete (hsure : NoDbFailure K) (caller : Caller) (row : Task)
    (editInfo : TaskMutationPayload) (hentered : Entered s.view)
    (hcovers : Covers ext (· ≠ row.id) s.view)
    (hrow : ∀ row', s.view.tasks.byId row.id = some row' →
      row'.nodeID = row.nodeID ∧ row'.isDisable = row.isDisable) :
    Ensures ext K (editSaved caller row editInfo) (fun _ s' => Complete ext s'.view) s := by
  refine (deleteTask_spec row.id s).bind fun _ s₁ h₁ => ?_
  have hentered₁ : Entered s₁.view := h₁ ▸ hentered.unschedule row.id
  have hcovers₁ : Covers ext (· ≠ row.id) s₁.view := h₁ ▸ hcovers.unschedule hentered.sound
  have hdone : ∀ s' : State, Complete ext s'.view →
      Ensures ext K (editTaskDone caller row editInfo) (fun _ s'' => Complete ext s''.view) s' :=
    fun _ h => Ensures.complete_of_plain (logged_uses _ _ _ _) h
  refine (controllerIsLocalTask_exact hsure row s₁).bind ?_
  rintro isLocal s₂ ⟨h₂, hlocal⟩
  rw [← h₂] at hentered₁ hcovers₁ hlocal
  split
  · refine (managerAddTask_complete hsure hentered₁ hcovers₁).bind fun r s₃ h₃ => ?_
    cases r with
    | error err => exact Ensures.pure h₃
    | ok _ => exact hdone s₃ h₃
  · -- a task that is disabled or not local is not to be scheduled
    rename_i hno
    refine hdone s₂ ⟨hentered₁, hcovers₁.close ?_⟩
    rintro ⟨row', hrow', henabled, hmaster, -⟩
    rw [h₂, h₁, tasks_unschedule] at hrow'
    obtain ⟨hnode, hdisable⟩ := hrow row' hrow'
    refine absurd ⟨hlocal.mpr ?_, ?_⟩ hno
    · rw [← hnode]
      exact isLocal_of_onMaster hmaster
    · rw [← hdisable, henabled]
      exact Bool.false_ne_true

/-- The row that has been saved is found with its switch and its node. -/
theorem byId_of_saved {tasks tasks' : Table Task} {row row' : Task} {now : Time}
    (hsave : tasks.save row now = some tasks') (hrow : tasks'.byId row.id = some row') :
    row' = Table.saved row now := by
  rw [Table.byId_eq_some, Table.row?_save hsave, rowId_task, if_pos rfl, Option.some.injEq] at hrow
  exact hrow.1.symm

theorem editTask_complete (hsure : NoDbFailure K) (caller : Caller) (taskId : Int)
    (body : Except String TaskMutationPayload) (h : Complete ext s.view) :
    Ensures ext K (Controller.editTask ext caller taskId body)
      (fun _ s' => Complete ext s'.view) s := by
  unfold Controller.editTask
  cases body with
  | error err => exact Ensures.pure h
  | ok editInfo =>
    refine (findTask_spec taskId s).bind ?_
    rintro r s₁ ⟨h₁, -⟩
    rw [← h₁] at h
    cases r with
    | error err => exact Ensures.pure h
    | ok taskModel =>
      refine (Ensures.of_plain (validateTaskMutationPayload_uses ext taskModel.id editInfo) s₁).bind ?_
      intro r s₂ h₂
      rw [← h₂] at h
      cases r with
      | some err => exact Ensures.pure h
      | none =>
        refine (saveTask_spec (editInfo.apply taskModel) s₂).bind ?_
        rintro _ s₃ (⟨err, rfl, h₃, -⟩ | ⟨now, tasks, rfl, hsave, h₃, -⟩)
        · exact Ensures.pure (h₃ ▸ h)
        · apply editSaved_complete hsure caller (editInfo.apply taskModel) editInfo
          · rw [h₃]
            exact ⟨h.entered.sound, h.entered.entry⟩
          · rw [h₃]
            exact (h.covered.but _).save hsave rfl
          · intro row' hrow'
            rw [h₃] at hrow'
            rw [byId_of_saved hsave hrow']
            exact ⟨nodeID_saved _ _, rfl⟩

/-- Whatever becomes of the save: the row says that the task is disabled, or it is not there. -/
theorem stopTask_complete (caller : Caller) (taskId : Int) (hsure : NoDbFailure K)
    (h : Complete ext s.view) :
    Ensures ext K (Controller.stopTask caller taskId) (fun _ s' => Complete ext s'.view) s := by
  refine (findTask_spec taskId s).bind ?_
  rintro r s₁ ⟨h₁, hfound, -⟩
  rw [← h₁] at h hfound
  cases r with
  | error err => exact Ensures.pure h
  | ok taskModel =>
    have hid : taskModel.id = taskId := (Table.mem_of_byId (hfound taskModel rfl)).2.1
    refine (deleteTask_spec taskId s₁).bind fun _ s₂ h₂ => ?_
    have hentered : Entered s₂.view := h₂ ▸ h.entered.unschedule taskId
    have hcovers : Covers ext (· ≠ taskId) s₂.view :=
      h₂ ▸ (h.covered.but taskId).unschedule h.entered.sound
    refine (saveTask_spec { taskModel with isDisable := true } s₂).bind ?_
    rintro _ s₃ (⟨err, rfl, h₃, hgone⟩ | ⟨now, tasks, rfl, hsave, h₃, -⟩)
    · apply Ensures.complete_of_plain (logged_uses _ _ _ _)
      rw [h₃]
      refine ⟨hentered, hcovers.close ?_⟩
      rintro ⟨row, hrow, -⟩
      have hnone : s₂.view.tasks.byId taskId = none := hid ▸ hgone hsure
      rw [hnone] at hrow
      cases hrow
    · apply Ensures.complete_of_plain (logged_uses _ _ _ _)
      subst hid
      rw [h₃]
      refine ⟨⟨hentered.sound, hentered.entry⟩, (hcovers.save hsave rfl).close ?_⟩
      rintro ⟨row, hrow, henabled, -⟩
      rw [byId_of_saved hsave hrow] at henabled
      cases henabled

theorem startTask_complete (hsure : NoDbFailure K) (caller : Caller) (taskId : Int)
    (h : Complete ext s.view) :
    Ensures ext K (Controller.startTask caller taskId) (fun _ s' => Complete ext s'.view) s := by
  refine (findTask_spec taskId s).bind ?_
  rintro r s₁ ⟨h₁, hfound, -⟩
  rw [← h₁] at h hfound
  cases r with
  | error err => exact Ensures.pure h
  | ok taskModel =>
    obtain rfl : taskModel.id = taskId := (Table.mem_of_byId (hfound taskModel rfl)).2.1
    refine (saveTask_spec { taskModel with isDisable := false } s₁).bind ?_
    rintro _ s₂ (⟨err, rfl, h₂, -⟩ | ⟨now, tasks, rfl, hsave, h₂, -⟩)
    · exact Ensures.pure (h₂ ▸ h)
    · -- the row is enabled now, and `Manager.AddTask` is asked
      have hentered : Entered s₂.view := h₂ ▸ ⟨h.entered.sound, h.entered.entry⟩
      have hcovers : Covers ext (· ≠ taskModel.id) s₂.view :=
        h₂ ▸ (h.covered.but taskModel.id).save hsave rfl
      refine (managerAddTask_complete hsure hentered hcovers).bind fun r s₃ h₃ => ?_
      cases r with
      | error err => exact Ensures.pure h₃
      | ok _ => exact Ensures.complete_of_plain (logged_uses _ _ _ _) h₃

theorem deleteTask_complete (caller : Caller) (taskId : Int) (h : Complete ext s.view) :
    Ensures ext K (Controller.deleteTask caller taskId) (fun _ s' => Complete ext s'.view) s := by
  refine (findTask_spec taskId s).bind ?_
  rintro r s₁ ⟨h₁, -⟩
  rw [← h₁] at h
  cases r with
  | error err => exact Ensures.pure h
  | ok taskModel =>
    refine (deleteTaskRow_spec taskModel.id s₁).bind ?_
    rintro _ s₂ (⟨err, rfl, h₂, -⟩ | ⟨now, rfl, -, h₂, -⟩)
    · exact Ensures.pure (h₂ ▸ h)
    · apply Ensures.complete_of_plain (logged_uses _ _ _ _)
      rw [h₂]
      exact ⟨⟨h.entered.sound, h.entered.entry⟩, h.covered.delete taskModel.id now⟩

/-- Imported tasks are disabled. -/
theorem importTasks_complete (body : Except String (List TaskTransferItem))
    (h : Complete ext s.view) :
    Ensures ext K (Controller.importTasks ext body) (fun _ s' => Complete ext s'.view) s := by
  unfold Controller.importTasks
  cases body with
  | error err => exact Ensures.pure h
  | ok items =>
    dsimp only
    split
    · exact Ensures.pure h
    · apply (importTaskItems_spec items s).bind
      rintro _ s' (⟨err, rfl, hview, -⟩ | ⟨created, rows, tasks, rfl, hview, himports⟩)
      · apply Ensures.pure
        rcases hview with hview | hview
        · exact hview ▸ h
        · rw [hview]
          exact ⟨⟨h.entered.sound, h.entered.entry⟩, h.covered⟩
      · apply Ensures.pure
        rw [hview]
        refine ⟨⟨h.entered.sound, h.entered.entry⟩, h.covered.grow ?_ fun _ _ hsched => hsched⟩
        rintro t - ⟨row, hrow, henabled, hrest⟩
        obtain ⟨hmem, hid, hlive⟩ := Table.mem_of_byId hrow
        rw [himports.rows_eq, List.mem_append] at hmem
        rcases hmem with hold | hnew
        · exact ⟨row, hid ▸ Table.byId_of_mem hold hlive, henabled, hrest⟩
        · -- an imported row
          obtain ⟨hlen, himported⟩ := List.forall₂_iff_zip.mp himports.each
          rw [← List.map_snd_zip (Nat.le_of_eq hlen.symm)] at hnew
          obtain ⟨p, hp, rfl⟩ := List.mem_map.mp hnew
          have hdisable : p.2.isDisable = true :=
            congrArg Task.isDisable (himported hp).configuration
          rw [hdisable] at henabled
          cases henabled

/-! ## The node requests -/

/-- The live master nodes are among those of before. -/
def NoNewMaster (nodes nodes' : Table Node) : Prop :=
  ∀ id node, nodes'.byId id = some node → node.isMaster = true →
    ∃ node₀, nodes.byId id = some node₀ ∧ node₀.isMaster = true

/-- The row is no master, or its node was one. -/
def OldMaster (nodes : Table Node) (row : Node) : Prop :=
  row.isMaster = true → ∃ node₀, nodes.byId row.id = some node₀ ∧ node₀.isMaster = true

theorem oldMaster_guard (nodes : Table Node) : NodeGuard (OldMaster nodes) fun _ => True where
  kept := by
    intro row row' hstamps hmaster _ hrow hmaster'
    rw [hstamps]
    exact hrow (hmaster ▸ hmaster')
  rekeyed _ _ _ _ hrow := hrow

/-- One operation makes no new master. -/
theorem NoNewMaster.step {nodes₀ nodes nodes' : Table Node} {c : Choice} {o : Op}
    (h : NoNewMaster nodes₀ nodes)
    (ho : NodeOk (OldMaster nodes₀) (fun _ => True) (fun _ => True) o)
    (hstep : NodeStep c nodes o nodes') : NoNewMaster nodes₀ nodes' := by
  intro id node hnode hmaster
  cases hstep with
  | same => exact h id node hnode hmaster
  | @created row now hok =>
    rw [Table.byId_create] at hnode
    split at hnode
    · -- a new node is an edge node
      cases hnode
      have hedge : (nodes.inserted row now).isMaster = false := ho.1
      rw [hedge] at hmaster
      cases hmaster
    · exact h id node hnode hmaster
  | @saved row now _ hok hsave =>
    rw [Table.byId_eq_some, Table.row?_save hsave] at hnode
    split at hnode
    · rename_i hid
      obtain ⟨heq, -⟩ := hnode
      cases heq
      rw [hid]
      exact ho hmaster
    · exact h id node (Table.byId_eq_some.mpr hnode) hmaster
  | deleted hok =>
    rw [Table.byId_delete] at hnode
    split at hnode
    · cases hnode
    · exact h id node hnode hmaster

/-- The node requests make no task the master's. -/
theorem nodeRequest_noNewMaster {req : Request} (hreq : req.isNodeRequest = true) (caller : Caller)
    (s : State) :
    Ensures ext K (req.handle ext caller) (fun _ s' => NoNewMaster s.db.node s'.db.node) s := by
  have himport : ∀ body, req ≠ .importTasks body := by
    rintro body rfl
    cases hreq
  have hassured : (req.handle ext caller).Assured
      (NodeOk (OldMaster s.db.node) (fun _ => True) fun _ => True)
      (NodeAns (OldMaster s.db.node) fun _ => True) := by
    apply request_assured (oldMaster_guard s.db.node).duty _ caller req himport
    exact fun _ _ _ _ => trivial
  refine Ensures.of_runs fun _ s' hrun => ?_
  refine hassured.runs (I := fun s₁ => NoNewMaster s.db.node s₁.db.node) ?_ ?_ hrun
  · rintro o s₁ r s₂ h ho ⟨c, -, hexec⟩
    refine ⟨nodeAns_of_exec ?_ (fun _ _ => trivial) hexec, h.step ho (nodeStep_of_exec hexec)⟩
    intro i node hnode hmaster
    obtain rfl : node.id = i := (Table.mem_of_byId hnode).2.1
    exact h node.id node hnode hmaster
  · exact fun id node hnode hmaster => ⟨node, hnode, hmaster⟩

theorem nodeRequest_complete {req : Request} (hreq : req.isNodeRequest = true) (caller : Caller)
    (h : Complete ext s.view) :
    Ensures ext K (req.handle ext caller) (fun _ s' => Complete ext s'.view) s := by
  have hview : Ensures ext K (req.handle ext caller) (fun _ s' =>
      s'.view = { s.view with nodes := s'.view.nodes }) s := by
    refine (nodeRequest_uses hreq caller).wp (I := fun s' : State =>
      s'.view = { s.view with nodes := s'.view.nodes }) (fun o s₁ ho hs => ⟨trivial, ?_⟩) rfl
    rintro r s₂ ⟨c, -, hexec⟩
    rw [view_of_nodeWork ho hexec, hs]
  refine (hview.and (nodeRequest_noNewMaster hreq caller s)).mono ?_
  rintro _ s' ⟨hsame, hnodes⟩
  rw [hsame]
  refine ⟨⟨h.entered.sound, h.entered.entry⟩, h.covered.grow ?_ fun _ _ hsched => hsched⟩
  rintro t - ⟨row, hrow, henabled, hmaster, hparse⟩
  refine ⟨row, hrow, henabled, ?_, hparse⟩
  rcases hmaster with hzero | ⟨node, hnode, hismaster⟩
  · exact .inl hzero
  · exact .inr (hnodes row.nodeID node hnode hismaster)

/-! ## Start-up -/

theorem addTasks_entered (rows : List Task) (h : Entered s.view) :
    Ensures ext K (Gonitor.Task.addTasks rows) (fun _ s' => Entered s'.view ∧
      s'.view.tasks = s.view.tasks ∧ s'.view.nodes = s.view.nodes) s := by
  induction rows generalizing s with
  | nil => exact Ensures.pure ⟨h, rfl, rfl⟩
  | cons row rows ih =>
    refine (addTask_spec row.id s).bind fun _ s₁ h₁ => ?_
    obtain ⟨htasks, hnodes⟩ := addOutcome_tables h₁
    rw [← htasks, ← hnodes]
    exact ih (h.addOutcome h₁)

/-- `Manager.Start` reads the tables, and enters what it schedules. -/
theorem start_entered (db : Database) (now : Time) :
    Ensures ext K Gonitor.Task.start (fun _ s' => Entered s'.view ∧
      s'.view.tasks = db.task ∧ s'.view.nodes = db.node) (State.boot db now) := by
  have hboot : Entered (State.boot db now).view := by
    refine ⟨ScheduleSound.init, ?_⟩
    intro t ti hti
    cases hti
  refine (Ensures.of_uses (p := enabledTasks) ⟨trivial, fun _ => trivial⟩ _).bind ?_
  intro r s₁ h₁
  have hs₁ : Entered s₁.view := h₁ ▸ hboot
  have htasks : s₁.view.tasks = db.task := congrArg View.tasks h₁
  have hnodes : s₁.view.nodes = db.node := congrArg View.nodes h₁
  cases r with
  | error err =>
    refine (Ensures.of_uses (p := crash) ⟨trivial, fun _ => trivial⟩ s₁).mono fun _ _ h₂ => ?_
    rw [h₂]
    exact ⟨hs₁, htasks, hnodes⟩
  | ok tasks =>
    rw [← htasks, ← hnodes]
    exact addTasks_entered tasks hs₁

/-- `Manager.Start` schedules all that is to be scheduled. -/
theorem start_complete (hsure : NoDbFailure K) (db : Database) (now : Time) :
    Ensures ext K Gonitor.Task.start (fun _ s' => Complete ext s'.view) (State.boot db now) := by
  refine Ensures.of_runs fun _ s' hrun => ?_
  obtain ⟨hs', htasks, hnodes⟩ := hrun.post (start_entered db now)
  refine ⟨hs', fun t _ => ?_⟩
  rintro ⟨row, hrow, henabled, hmaster, hparse⟩
  rw [htasks] at hrow
  rw [hnodes] at hmaster
  obtain rfl : row.id = t := (Table.mem_of_byId hrow).2.1
  have hplaces : Places ext (State.boot db now).view row := ⟨isLocal_of_onMaster hmaster, hparse⟩
  exact (hrun.post (start_decides hsure hrow henabled)).mpr hplaces

end Handlers

/-! ## In every run -/

section Runs

variable {ext : Externals} {K : State → Op → Choice → Prop} {s : State}

theorem requests_complete (hsure : NoDbFailure K) {req : Request} (hreq : TaskOrNodeRequest req)
    (caller : Caller) (hhealthy : Healthy False (fun _ => False) s.view)
    (h : Complete ext s.view) :
    Ensures ext K (req.handle ext caller) (fun _ s' => Complete ext s'.view) s := by
  rcases hreq with htask | hnode
  · cases req with
    | addTask body => exact addTask_complete hsure caller body h hhealthy.lookup_nextId
    | editTask taskId body => exact editTask_complete hsure caller taskId body h
    | deleteTask taskId => exact deleteTask_complete caller taskId h
    | startTask taskId => exact startTask_complete hsure caller taskId h
    | stopTask taskId => exact stopTask_complete caller taskId hsure h
    | importTasks body => exact importTasks_complete body h
    | _ => cases htask
  · exact nodeRequest_complete hnode caller h

/-- Between requests, what is to be scheduled is. -/
theorem reachable_complete (hsure : NoDbFailure K) (h : Reachable ext K TaskOrNodeRequest s) :
    Complete ext s.view := by
  have hstart : ∀ db now, Ensures ext K Gonitor.Task.start
      (fun _ s => Healthy False (fun _ => False) s.view ∧ Complete ext s.view)
      (State.boot db now) :=
    fun db now => (start_healthy False.elim db now).and (start_complete hsure db now)
  have hrequest : ∀ req caller s, TaskOrNodeRequest req →
      Healthy False (fun _ => False) s.view ∧ Complete ext s.view →
      Ensures ext K (req.handle ext caller)
        (fun _ s' => Healthy False (fun _ => False) s'.view ∧ Complete ext s'.view) s := by
    rintro req caller s hreq ⟨hhealthy, hcomplete⟩
    refine Ensures.and ?_ (requests_complete hsure hreq caller hhealthy hcomplete)
    rcases hreq with htask | hnode
    · exact taskRequest_healthy False.elim htask caller hhealthy
    · exact nodeRequest_healthy hnode caller hhealthy
  have hboth := h.invariant hstart hrequest
  exact hboth.2

/-- **No task is forgotten**: where the database answers, through start-up and any requests about
    tasks and nodes, every live, enabled task of the master whose schedule cron parses has one cron
    entry, and the entry runs the configuration that is stored. -/
theorem enabled_tasks_entered {t : Int} {row : Task} (hsure : NoDbFailure K)
    (h : Reachable ext K TaskOrNodeRequest s) (hrow : s.db.task.byId t = some row)
    (henabled : row.isDisable = false) (hmaster : OnMaster s.db.node row.nodeID)
    (hparse : ext.cronParse row.schedule = true) :
    ∃ x ∈ s.sched.cron.entries, x.job.taskInfo.id = t ∧
      x.job.taskInfo.configuration = row.configuration ∧
      ∀ y ∈ s.sched.cron.entries, y.job.taskInfo.id = t → y = x := by
  have hcomplete := reachable_complete hsure h
  have hsound := hcomplete.entered.sound
  have hsched : View.Scheduled s.view t :=
    hcomplete.covered t trivial ⟨row, hrow, henabled, hmaster, hparse⟩
  obtain ⟨ti, hti⟩ := Option.isSome_iff_exists.mp hsched
  obtain ⟨x, hx, hid⟩ := List.mem_map.mp (hcomplete.entered.entry t ti hti)
  -- an entry for the task is that of its instance
  have hlisted : ∀ y ∈ s.view.cron.entries, ∃ t' ti', s.view.taskList.lookup t' = some ti' ∧
      ti'.entryId = y.id ∧ y.job.taskInfo = ti'.taskInfo ∧ y.job.taskInfo.id = t' := by
    intro y hy
    obtain ⟨t', ti', hti', hid', hjob⟩ := hsound.entry_listed y hy
    refine ⟨t', ti', hti', hid', by rw [hjob]; rfl, ?_⟩
    rw [hjob]
    exact (hsound.key_eq t' ti' hti').2
  obtain ⟨t', ti', hti', hid', hinfo, ht'⟩ := hlisted x hx
  obtain rfl := hsound.entry_unique t' ti' t ti hti' hti (hid'.trans hid)
  obtain rfl : ti' = ti := Option.some.inj (hti'.symm.trans hti)
  obtain ⟨row', hrow', hconf, -⟩ := (reachable_healthy h).fresh t' ti' hti'
  obtain rfl : row' = row :=
    Option.some.inj (hrow'.symm.trans (Table.byId_eq_some.mp hrow).1)
  refine ⟨x, hx, ht', by rw [hinfo, hconf], fun y hy hyt => ?_⟩
  obtain ⟨t₂, ti₂, hti₂, hid₂, -, ht₂⟩ := hlisted y hy
  obtain rfl : t₂ = t' := ht₂.symm.trans hyt
  obtain rfl : ti₂ = ti' := Option.some.inj (hti₂.symm.trans hti')
  exact List.inj_on_of_nodup_map hsound.entry_nodup hy hx (hid₂.symm.trans hid')

/-- Start-up on the database with one task, where nothing fails. -/
theorem oneTaskState_sure : StartedUp plainExternals SureStep oneTaskState := by
  refine ⟨oneTaskDatabase, 0, .op ⟨{}, rfl, rfl⟩ (.op ⟨{}, rfl, rfl⟩ (.op ⟨{}, rfl, rfl⟩ ?_))⟩
  exact .op ⟨{}, rfl, rfl⟩ (.op ⟨{}, rfl, rfl⟩ (.pure _ _))

/-- A task is stopped and started again: it has a new entry. -/
theorem enabled_tasks_entered_restarted :
    ∃ s, Reachable plainExternals SureStep TaskOrNodeRequest s ∧ s.sched.cron.nextID = 3 ∧
      ∃ x ∈ s.sched.cron.entries, x.job.taskInfo.id = 1 := by
  let script : List (Request × List Choice) :=
    [(.stopTask 1, List.replicate 10 {}), (.startTask 1, List.replicate 10 {})]
  have hserved : ∃ s row, serveWith plainExternals ⟨0, ""⟩ script oneTaskState = some s ∧
      s.sched.cron.nextID = 3 ∧ s.db.task.byId 1 = some row ∧ row.isDisable = false ∧
      row.nodeID = 0 := ⟨_, _, rfl, rfl, rfl, rfl, rfl⟩
  obtain ⟨s, row, hserve, hnext, hrow, henabled, hnode⟩ := hserved
  have hreach : Reachable plainExternals SureStep TaskOrNodeRequest s := by
    refine ⟨oneTaskState, oneTaskState_sure, servesMany_of_serveWith ?_ ?_ hserve⟩
    · simp [script, TaskOrNodeRequest, Request.isTaskRequest]
    · simp [script, SureStep]
  obtain ⟨x, hx, hid, -, -⟩ := enabled_tasks_entered noDbFailure_sureStep hreach hrow henabled
    (.inl hnode) rfl
  exact ⟨s, hreach, hnext, x, hx, hid⟩

end Runs

end Gonitor.Integrity
