import Gonitor.Integrity.Importing

/-!
# The Writers of the Task Table

Every task request, whatever fails in it, takes the task table through accepted changes and
leaves the nodes alone (`taskRequest_changes`), and start-up leaves both alone.  An invariant of the task table is
then a matter of one lemma about one change (`ReachableFrom.tasks_invariant`).
-/

namespace Gonitor.Integrity

open Gonitor.Model Gonitor.Server Gonitor.Controller Gonitor.Requests AtomicProgram SoftDelete

/-! ## What leaves both tables alone -/

/-- Tasks and nodes are the same in both views. -/
def SameTables (v v' : View) : Prop := v'.tasks = v.tasks ∧ v'.nodes = v.nodes

theorem SameTables.of_eq {v v' : View} (h : v' = v) : SameTables v v' := by
  subst h
  exact ⟨rfl, rfl⟩

theorem SameTables.trans {v₁ v₂ v₃ : View} (h : SameTables v₁ v₂) (h' : SameTables v₂ v₃) :
    SameTables v₁ v₃ :=
  ⟨h'.1.trans h.1, h'.2.trans h.2⟩

theorem sameTables_unschedule (v : View) (taskId : Int) : SameTables v (v.unschedule taskId) := by
  unfold View.unschedule
  split <;> exact ⟨rfl, rfl⟩

theorem sameTables_addOutcome {K : State → Op → Choice → Prop} {taskId : Int} {v v' : View}
    (h : AddOutcome K taskId v v') : SameTables v v' := by
  rcases h with rfl | ⟨row, -, -, -, -, rfl⟩
  · exact ⟨rfl, rfl⟩
  · exact ⟨rfl, rfl⟩

section Writers

variable {ext : Externals} {K : State → Op → Choice → Prop}

theorem managerAddTask_tables (taskId : Int) (s : State) :
    Ensures ext K (Gonitor.Task.addTask taskId) (fun _ s' => SameTables s.view s'.view) s :=
  (addTask_spec taskId s).mono fun _ _ h => sameTables_addOutcome h

theorem managerDeleteTask_tables (taskId : Int) (s : State) :
    Ensures ext K (Gonitor.Task.deleteTask taskId) (fun _ s' => SameTables s.view s'.view) s := by
  refine (deleteTask_spec taskId s).mono fun _ s' h => ?_
  rw [h]
  exact sameTables_unschedule s.view taskId

theorem plain_tables {α : Type} {p : Program α} (hp : p.Uses Plain) (s : State) :
    Ensures ext K p (fun _ s' => SameTables s.view s'.view) s :=
  (Ensures.of_plain hp s).mono fun _ _ h => .of_eq h

theorem syncTaskToNode_tables (taskId : Int) (s : State) :
    Ensures ext K (syncTaskToNode taskId) (fun _ s' => SameTables s.view s'.view) s := by
  refine (findTask_spec taskId s).bind ?_
  rintro r s₁ ⟨h₁, -⟩
  cases r with
  | error err => exact Ensures.pure (.of_eq h₁)
  | ok taskModel =>
    dsimp only
    split
    · exact (managerAddTask_tables taskId s₁).mono fun _ _ h => (SameTables.of_eq h₁).trans h
    · refine (Ensures.of_plain (p := findNode .syncTaskToNode taskModel.nodeID)
        ⟨trivial, fun _ => trivial⟩ s₁).bind ?_
      intro r s₂ h₂
      have hsame : SameTables s.view s₂.view := .of_eq (h₂.trans h₁)
      cases r with
      | error err => exact Ensures.pure hsame
      | ok nodeModel =>
        dsimp only
        split
        · exact (managerAddTask_tables taskId s₂).mono fun _ _ h => hsame.trans h
        · exact Ensures.pure hsame

/-! ## What each request does -/

/-- The nodes are the same, and the tasks have gone through changes. -/
def Moves (ext : Externals) (K : State → Op → Choice → Prop) (v v' : View) : Prop :=
  v'.nodes = v.nodes ∧ TaskChanges ext K v.nodes v.tasks v'.tasks

theorem Moves.of_same {v v' : View} (h : SameTables v v') : Moves ext K v v' := by
  refine ⟨h.2, ?_⟩
  rw [h.1]
  exact .refl

theorem Moves.trans {v₁ v₂ v₃ : View} (h : Moves ext K v₁ v₂) (h' : Moves ext K v₂ v₃) :
    Moves ext K v₁ v₃ :=
  ⟨h'.1.trans h.1, h.2.trans (h.1 ▸ h'.2)⟩

theorem Moves.change {v v' : View} (hnodes : v'.nodes = v.nodes)
    (h : TaskChange ext K v.nodes v.tasks v'.tasks) : Moves ext K v v' :=
  ⟨hnodes, .single h⟩

/-- A part of a handler that leaves both tables alone, after the rest. -/
theorem moves_then {α : Type} {p : Program α} {v : View} {s : State} (h : Moves ext K v s.view)
    (hp : Ensures ext K p (fun _ s' => SameTables s.view s'.view) s) :
    Ensures ext K p (fun _ s' => Moves ext K v s'.view) s :=
  hp.mono fun _ _ hsame => h.trans (.of_same hsame)

theorem addTask_changes (caller : Caller) (body : Except String TaskMutationPayload) (s : State) :
    Ensures ext K (Controller.addTask ext caller body) (fun _ s' => Moves ext K s.view s'.view)
      s := by
  unfold Controller.addTask
  cases body with
  | error err => exact Ensures.pure (.of_same (.of_eq rfl))
  | ok addInfo =>
    refine (validateTaskMutationPayload_spec 0 addInfo s).bind ?_
    rintro r s₁ ⟨h₁, haccepted, -⟩
    rw [← h₁]
    cases r with
    | some err => exact Ensures.pure (.of_same (.of_eq rfl))
    | none =>
      refine (createTask_spec _ s₁).bind ?_
      rintro _ s₂ (⟨err, rfl, h₂, -⟩ | ⟨now, rfl, h₂, hperf⟩)
      · exact Ensures.pure (.of_same (.of_eq h₂))
      · have hmoves : Moves ext K s₁.view s₂.view := by
          refine .change (by rw [h₂]) ?_
          rw [h₂]
          exact .created (h₁ ▸ haccepted rfl) ⟨s₁, rfl, rfl, hperf⟩
        refine (moves_then hmoves (syncTaskToNode_tables _ s₂)).bind ?_
        intro r s₃ h₃
        cases r with
        | error err => exact Ensures.pure h₃
        | ok _ => exact moves_then h₃ (plain_tables (logged_uses _ _ _ _) s₃)

theorem editTask_changes (caller : Caller) (taskId : Int)
    (body : Except String TaskMutationPayload) (s : State) :
    Ensures ext K (Controller.editTask ext caller taskId body)
      (fun _ s' => Moves ext K s.view s'.view) s := by
  unfold Controller.editTask
  cases body with
  | error err => exact Ensures.pure (.of_same (.of_eq rfl))
  | ok editInfo =>
    refine (findTask_spec taskId s).bind ?_
    rintro r s₁ ⟨h₁, hrow, -⟩
    rw [← h₁] at hrow ⊢
    cases r with
    | error err => exact Ensures.pure (.of_same (.of_eq rfl))
    | ok taskModel =>
      refine (validateTaskMutationPayload_spec taskModel.id editInfo s₁).bind ?_
      rintro r s₂ ⟨h₂, haccepted, -⟩
      rw [← h₂] at hrow haccepted ⊢
      cases r with
      | some err => exact Ensures.pure (.of_same (.of_eq rfl))
      | none =>
        refine (saveTask_spec (editInfo.apply taskModel) s₂).bind ?_
        rintro _ s₃ (⟨err, rfl, h₃, -⟩ | ⟨now, tasks, rfl, hsave, h₃, hperf⟩)
        · exact Ensures.pure (.of_same (.of_eq h₃))
        · have hfound := hrow taskModel rfl
          have hid : taskModel.id = taskId := (Table.mem_of_byId hfound).2.1
          have hmoves : Moves ext K s₂.view s₃.view := by
            refine .change (by rw [h₃]) ?_
            rw [h₃]
            exact .saved (hid ▸ hfound) (.edited (haccepted rfl)) ⟨s₂, rfl, rfl, hperf⟩ hsave
          refine (moves_then hmoves (managerDeleteTask_tables taskModel.id s₃)).bind ?_
          intro _ s₄ h₄
          refine (moves_then h₄ (plain_tables (isLocalTask_uses _) s₄)).bind ?_
          intro isLocal s₅ h₅
          split
          · refine (moves_then h₅ (managerAddTask_tables taskModel.id s₅)).bind ?_
            intro r s₆ h₆
            cases r with
            | error err => exact Ensures.pure h₆
            | ok _ => exact moves_then h₆ (plain_tables (logged_uses _ _ _ _) s₆)
          · exact moves_then h₅ (plain_tables (logged_uses _ _ _ _) s₅)

/-- The switch of a live row, saved. -/
theorem switched_moves {taskModel : Task} {taskId : Int} {b : Bool} {now : Time}
    {tasks : Table Task} {v' : View} {s : State}
    (hfound : s.view.tasks.byId taskId = some taskModel)
    (hsave : s.view.tasks.save { taskModel with isDisable := b } now = some tasks)
    (hperf : Performs K s (.db (.saveTask { taskModel with isDisable := b })))
    (hview : v' = { s.view with tasks := tasks }) : Moves ext K s.view v' := by
  have hid : taskModel.id = taskId := (Table.mem_of_byId hfound).2.1
  refine .change (by rw [hview]) ?_
  rw [hview]
  exact .saved (hid ▸ hfound) (.switched b) ⟨s, rfl, rfl, hperf⟩ hsave

theorem stopTask_changes (caller : Caller) (taskId : Int) (s : State) :
    Ensures ext K (Controller.stopTask caller taskId) (fun _ s' => Moves ext K s.view s'.view)
      s := by
  refine (findTask_spec taskId s).bind ?_
  rintro r s₁ ⟨h₁, hrow, -⟩
  rw [← h₁] at hrow ⊢
  cases r with
  | error err => exact Ensures.pure (.of_same (.of_eq rfl))
  | ok taskModel =>
    refine (managerDeleteTask_tables taskId s₁).bind ?_
    intro _ s₂ h₂
    have hfound : s₂.view.tasks.byId taskId = some taskModel := h₂.1 ▸ hrow taskModel rfl
    refine (saveTask_spec { taskModel with isDisable := true } s₂).bind ?_
    rintro _ s₃ (⟨err, rfl, h₃, -⟩ | ⟨now, tasks, rfl, hsave, h₃, hperf⟩)
    · refine moves_then ?_ (plain_tables (logged_uses _ _ _ _) s₃)
      exact .of_same (h₂.trans (.of_eq h₃))
    · refine moves_then ?_ (plain_tables (logged_uses _ _ _ _) s₃)
      exact (Moves.of_same h₂).trans (switched_moves hfound hsave hperf h₃)

theorem startTask_changes (caller : Caller) (taskId : Int) (s : State) :
    Ensures ext K (Controller.startTask caller taskId) (fun _ s' => Moves ext K s.view s'.view)
      s := by
  refine (findTask_spec taskId s).bind ?_
  rintro r s₁ ⟨h₁, hrow, -⟩
  rw [← h₁] at hrow ⊢
  cases r with
  | error err => exact Ensures.pure (.of_same (.of_eq rfl))
  | ok taskModel =>
    refine (saveTask_spec { taskModel with isDisable := false } s₁).bind ?_
    rintro _ s₂ (⟨err, rfl, h₂, -⟩ | ⟨now, tasks, rfl, hsave, h₂, hperf⟩)
    · exact Ensures.pure (.of_same (.of_eq h₂))
    · have hmoves : Moves ext K s₁.view s₂.view :=
        switched_moves (hrow taskModel rfl) hsave hperf h₂
      refine (moves_then hmoves (managerAddTask_tables taskId s₂)).bind ?_
      intro r s₃ h₃
      cases r with
      | error err => exact Ensures.pure h₃
      | ok _ => exact moves_then h₃ (plain_tables (logged_uses _ _ _ _) s₃)

theorem deleteTask_changes (caller : Caller) (taskId : Int) (s : State) :
    Ensures ext K (Controller.deleteTask caller taskId) (fun _ s' => Moves ext K s.view s'.view)
      s := by
  refine (findTask_spec taskId s).bind ?_
  rintro r s₁ ⟨h₁, -⟩
  rw [← h₁]
  cases r with
  | error err => exact Ensures.pure (.of_same (.of_eq rfl))
  | ok taskModel =>
    refine (deleteTaskRow_spec taskModel.id s₁).bind ?_
    rintro _ s₂ (⟨err, rfl, h₂, -⟩ | ⟨now, rfl, -, h₂, hperf⟩)
    · exact Ensures.pure (.of_same (.of_eq h₂))
    · refine moves_then ?_ (plain_tables (logged_uses _ _ _ _) s₂)
      refine .change (by rw [h₂]) ?_
      rw [h₂]
      exact .deleted ⟨s₁, rfl, rfl, hperf⟩

theorem importTasks_changes (body : Except String (List TaskTransferItem)) (s : State) :
    Ensures ext K (Controller.importTasks ext body) (fun _ s' => Moves ext K s.view s'.view) s := by
  unfold Controller.importTasks
  cases body with
  | error err => exact Ensures.pure (.of_same (.of_eq rfl))
  | ok items =>
    dsimp only
    split
    · exact Ensures.pure (.of_same (.of_eq rfl))
    · refine (importTaskItems_spec items s).bind ?_
      rintro _ s' (⟨err, rfl, hview, -⟩ | ⟨created, rows, tasks, rfl, hview, himports⟩)
      · refine Ensures.pure (.of_same ?_)
        rcases hview with h | h <;> rw [h] <;> exact ⟨rfl, rfl⟩
      · refine Ensures.pure ⟨by rw [hview], ?_⟩
        rw [hview]
        exact himports.changes

/-- **Every task request takes the task table through accepted changes** and leaves the nodes
    alone. -/
theorem taskRequest_changes {req : Request} (hreq : req.isTaskRequest = true) (caller : Caller)
    (s : State) :
    Ensures ext K (req.handle ext caller) (fun _ s' => Moves ext K s.view s'.view) s := by
  cases req with
  | addTask body => exact addTask_changes caller body s
  | editTask taskId body => exact editTask_changes caller taskId body s
  | deleteTask taskId => exact deleteTask_changes caller taskId s
  | startTask taskId => exact startTask_changes caller taskId s
  | stopTask taskId => exact stopTask_changes caller taskId s
  | importTasks body => exact importTasks_changes body s
  | _ => cases hreq

end Writers

/-! ## Runs from given databases -/

/-- The states between requests of the kind `R`, from a start-up on a database with the property
    `Init` on. -/
def ReachableFrom (Init : Database → Prop) (ext : Externals) (K : State → Op → Choice → Prop)
    (R : Request → Prop) (s : State) : Prop :=
  ∃ db now s₀, Init db ∧
    Prog.Runs (execStep ext K) Gonitor.Task.start (State.boot db now) () s₀ ∧
    ServesMany ext K R s₀ s

section Runs

variable {Init : Database → Prop} {ext : Externals} {K : State → Op → Choice → Prop}
  {R : Request → Prop} {s : State}

theorem addTasks_tables (rows : List Task) (s : State) :
    Ensures ext K (Gonitor.Task.addTasks rows) (fun _ s' => SameTables s.view s'.view) s := by
  induction rows generalizing s with
  | nil => exact Ensures.pure (.of_eq rfl)
  | cons row rows ih =>
    refine (managerAddTask_tables row.id s).bind ?_
    intro _ s₁ h₁
    exact (ih s₁).mono fun _ _ h => h₁.trans h

/-- Start-up leaves the tables as they are. -/
theorem start_tables (s : State) :
    Ensures ext K Gonitor.Task.start (fun _ s' => SameTables s.view s'.view) s := by
  refine (Ensures.of_plain (p := enabledTasks) ⟨trivial, fun _ => trivial⟩ s).bind ?_
  intro r s₁ h₁
  cases r with
  | error err =>
    refine (Ensures.of_uses (p := crash) ⟨trivial, fun _ => trivial⟩ s₁).mono ?_
    exact fun _ _ h => .of_eq (h.trans h₁)
  | ok rows => exact (addTasks_tables rows s₁).mono fun _ _ h => (SameTables.of_eq h₁).trans h

/-- What holds of the tables at the beginning and is kept by every request holds throughout. -/
theorem ReachableFrom.tables_invariant {I : Table Task → Table Node → Prop}
    (hinit : ∀ db, Init db → I db.task db.node)
    (hrequest : ∀ req caller s, R req → I s.view.tasks s.view.nodes →
      Ensures ext K (req.handle ext caller) (fun _ s' => I s'.view.tasks s'.view.nodes) s)
    (h : ReachableFrom Init ext K R s) : I s.db.task s.db.node := by
  obtain ⟨db, now, s₀, hdb, hstart, hmany⟩ := h
  induction hmany with
  | refl =>
    obtain ⟨htasks, hnodes⟩ := hstart.post (start_tables (State.boot db now))
    have hs₀ : I s₀.view.tasks s₀.view.nodes := by
      rw [htasks, hnodes]
      exact hinit db hdb
    exact hs₀
  | tail _ hone ih =>
    obtain ⟨req, reply, hR, caller, hrun⟩ := hone
    exact hrun.post (hrequest req caller _ hR ih)

/-- The node requests leave the tasks alone. -/
theorem nodeWork_tasks {α : Type} {p : Program α} (hp : p.Uses NodeWork) (s : State) :
    Ensures ext K p (fun _ s' => s'.view.tasks = s.view.tasks) s := by
  refine hp.wp (I := fun s' : State => s'.view.tasks = s.view.tasks) (fun o s₁ ho hs => ⟨trivial, ?_⟩)
    rfl
  rintro r s₂ ⟨c, -, hexec⟩
  rw [view_of_nodeWork ho hexec]
  exact hs

/-- What one change of the task table keeps holds of it throughout. -/
theorem ReachableFrom.tasks_invariant {I : Table Task → Prop}
    (hinit : ∀ db, Init db → I db.task)
    (hchange : ∀ nodes tasks tasks', I tasks → TaskChange ext K nodes tasks tasks' → I tasks')
    (h : ReachableFrom Init ext K TaskOrNodeRequest s) : I s.db.task := by
  refine h.tables_invariant (I := fun tasks _ => I tasks) hinit fun req caller s hreq hs => ?_
  rcases hreq with htask | hnode
  · refine (taskRequest_changes htask caller s).mono ?_
    rintro _ s' ⟨-, hchanges⟩
    exact hchanges.invariant (hchange s.view.nodes) hs
  · refine (nodeWork_tasks (nodeRequest_uses hnode caller) s).mono ?_
    intro _ s' htasks
    rwa [htasks]

end Runs

end Gonitor.Integrity
